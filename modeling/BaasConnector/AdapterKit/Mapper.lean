import BaasConnector.Taxonomy.Errors

namespace BaasConnector.AdapterKit.Mapper

open BaasConnector.Taxonomy.Errors

/-- A parsed body. A number stands as the text that it is printed as. -/
inductive Json
  | null
  | bool (value : Bool)
  | num (text : String)
  | str (text : String)
  | arr (items : List Json)
  | obj (fields : List (String × Json))

/-- A path into a body, split at its dots. -/
abbrev Path := List String

def Json.field (segment : String) : Json → Option Json
  | .obj fields => (fields.find? fun field => decide (field.1 = segment)).map Prod.snd
  | .arr items =>
    if segment = "length" then some (.num (toString items.length))
    else (items.zipIdx.find? fun item => decide (toString item.2 = segment)).map Prod.fst
  | _ => none

def readPath (source : Json) (path : Path) : Option Json :=
  path.foldl (fun node segment => node.bind (Json.field segment)) (some source)

def textAt (source : Json) (path : Path) : Option String :=
  match readPath source path with
  | some (.str text) => if text = "" then none else some text
  | some (.num text) => some text
  | _ => none

def firstString (source : Json) (paths : List Path) : Option String := paths.findSome? (textAt source)

def commonCodePaths : List Path :=
  [["error", "code"], ["error", "errorCode"], ["errorCode"], ["code"], ["error"],
    ["errors", "0", "code"], ["data", "error", "code"]]

def commonMessagePaths : List Path :=
  [["error", "message"], ["message"], ["error_description"], ["errors", "0", "description"],
    ["errors", "0", "message"], ["detail"]]

def extractProviderCode (body : Json) (codePath : Option Path) : Option String :=
  match codePath with
  | some path => firstString body [path]
  | none => firstString body commonCodePaths

def extractProviderMessage (body : Json) : Option String := firstString body commonMessagePaths

structure ProviderErrorContext where
  slug : String
  code : Option String
  message : Option String
  httpStatus : Option Nat
  requestId : Option String
deriving DecidableEq, Repr

/-- A canonical error as the kit builds it. A field it leaves undefined takes
its value from the catalogue. -/
structure CanonicalError where
  code : BaasErrorCode
  provider : ProviderErrorContext
  requestId : Option String
  retryable : Option Bool
  safeToRetry : Option Bool
  details : Option (List (Option String × String))
deriving DecidableEq, Repr

/-- The tests a mapping puts to a response. An absent test passes. -/
structure ErrorMatch where
  status : Option (Nat → Bool) := none
  code : Option (String → Bool) := none
  codePath : Option Path := none
  messageMatch : Option (String → Bool) := none

structure ErrorMapping where
  case : ErrorMatch
  toCode : BaasErrorCode
  retryable : Option Bool := none
  safeToRetry : Option Bool := none
  details : Json → Option (List (Option String × String)) := fun _ => none

structure MapErrorInput where
  status : Nat
  body : Json
  providerSlug : String
  requestId : Option String

def statusMatches (test : Option (Nat → Bool)) (status : Nat) : Bool := test.all fun test => test status

def codeMatches (test : Option (String → Bool)) (code : Option String) : Bool :=
  test.all fun test => code.any test

def ErrorMapping.applies (mapping : ErrorMapping) (input : MapErrorInput) : Bool :=
  let providerCode := extractProviderCode input.body mapping.case.codePath
  statusMatches mapping.case.status input.status && codeMatches mapping.case.code providerCode &&
    codeMatches mapping.case.messageMatch (extractProviderMessage input.body)

/-- The first mapping that applies decides. -/
def buildErrorMapper (mappings : List ErrorMapping) (fallback : BaasErrorCode) (input : MapErrorInput) :
    CanonicalError :=
  let provider : ProviderErrorContext :=
    { slug := input.providerSlug
      code := extractProviderCode input.body none
      message := extractProviderMessage input.body
      httpStatus := some input.status
      requestId := input.requestId }
  match mappings.find? (·.applies input) with
  | some mapping =>
    { code := mapping.toCode
      provider := provider
      requestId := input.requestId
      retryable := mapping.retryable
      safeToRetry := mapping.safeToRetry
      details := mapping.details input.body }
  | none =>
    { code := fallback, provider, requestId := input.requestId, retryable := none
      safeToRetry := none, details := none }

def onStatus (test : Nat → Bool) : ErrorMatch := { status := some test }

def commonErrorMappings : List ErrorMapping :=
  [{ case := onStatus (· == 401), toCode := .PROVIDER_CREDENTIALS_INVALID },
    { case := onStatus (· == 403), toCode := .AUTHORIZATION_DENIED },
    { case := onStatus (· == 404), toCode := .RESOURCE_NOT_FOUND },
    { case := onStatus (· == 409), toCode := .RESOURCE_ALREADY_EXISTS },
    { case := onStatus (· == 429), toCode := .PROVIDER_RATE_LIMITED
      retryable := some true, safeToRetry := some true },
    { case := onStatus fun status => [502, 503, 504].contains status, toCode := .PROVIDER_UNAVAILABLE
      retryable := some true, safeToRetry := some true },
    { case := onStatus fun status => decide (500 ≤ status), toCode := .PROVIDER_UNAVAILABLE
      retryable := some true, safeToRetry := some false }]

end BaasConnector.AdapterKit.Mapper
