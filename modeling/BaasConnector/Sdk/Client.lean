import BaasConnector.AdapterKit.Mapper
import BaasConnector.Auth.Signature
import BaasConnector.Lib.JsonText

namespace BaasConnector.Sdk.Client

open BaasConnector.AdapterKit.Mapper BaasConnector.Auth.Signature BaasConnector.Lib.Keyed

section Stringify

def quotedChar (c : Char) : List Char :=
  if c = '"' then ['\\', '"']
  else if c = '\\' then ['\\', '\\']
  else if c = '\n' then ['\\', 'n']
  else if c = '\r' then ['\\', 'r']
  else if c = '\t' then ['\\', 't']
  else if c = Char.ofNat 8 then ['\\', 'b']
  else if c = Char.ofNat 12 then ['\\', 'f']
  else if c.toNat < 32 then ['\\', 'u', '0', '0', Nat.digitChar (c.toNat / 16), Nat.digitChar (c.toNat % 16)]
  else [c]

def quoted (text : String) : String :=
  String.ofList ('"' :: text.toList.flatMap quotedChar ++ ['"'])

mutual

def stringify : Json → String
  | .null => "null"
  | .bool value => if value then "true" else "false"
  | .num text => text
  | .str text => quoted text
  | .arr items => "[" ++ ",".intercalate (stringifyItems items) ++ "]"
  | .obj fields => "\x7b" ++ ",".intercalate (stringifyFields fields) ++ "\x7d"

def stringifyItems : List Json → List String
  | [] => []
  | item :: items => stringify item :: stringifyItems items

def stringifyFields : List (String × Json) → List String
  | [] => []
  | (name, value) :: fields => (quoted name ++ ":" ++ stringify value) :: stringifyFields fields

end

end Stringify

section Units

open BaasConnector.Lib BaasConnector.Lib.CodeUnits

theorem escape_cons {unit : UInt16} (h : JsonText.isHighSurrogate unit = false) (text : Text) :
    JsonText.escape (unit :: text) = JsonText.escapeUnit unit ++ JsonText.escape text := by
  cases text with
  | nil => rw [JsonText.escape, JsonText.escape, List.append_nil]
  | cons low text => rw [JsonText.escape, h, Bool.false_and, if_neg Bool.false_ne_true]

theorem quotedChar_ascii : ∀ n < 128, (quotedChar (Char.ofNat n)).flatMap charUnits =
    JsonText.escapeUnit (UInt16.ofNat n) := by
  decide

theorem quotedChar_plain {c : Char} (h : 128 ≤ c.toNat) : quotedChar c = [c] := by
  have hne : ∀ d : Char, d.toNat < 128 → c ≠ d := by
    rintro d hd rfl
    omega
  rw [quotedChar, if_neg (hne _ (by decide)), if_neg (hne _ (by decide)), if_neg (hne _ (by decide)),
    if_neg (hne _ (by decide)), if_neg (hne _ (by decide)), if_neg (hne _ (by decide)),
    if_neg (hne _ (by decide)), if_neg (by omega)]

theorem highSurrogate_ofNat {n : Nat} (h : n < 0x10000) :
    JsonText.isHighSurrogate (UInt16.ofNat n) = true ↔ 0xD800 ≤ n ∧ n < 0xDC00 := by
  rw [JsonText.isHighSurrogate, Bool.and_eq_true, decide_eq_true_eq, decide_eq_true_eq, UInt16.le_iff_toNat_le,
    UInt16.lt_iff_toNat_lt, UInt16.toNat_ofNat_of_lt' h]
  rfl

theorem lowSurrogate_ofNat {n : Nat} (h : n < 0x10000) :
    JsonText.isLowSurrogate (UInt16.ofNat n) = true ↔ 0xDC00 ≤ n ∧ n < 0xE000 := by
  rw [JsonText.isLowSurrogate, Bool.and_eq_true, decide_eq_true_eq, decide_eq_true_eq, UInt16.le_iff_toNat_le,
    UInt16.lt_iff_toNat_lt, UInt16.toNat_ofNat_of_lt' h]
  rfl

theorem escapeUnit_plain {n : Nat} (hlow : 128 ≤ n) (hhigh : n < 0x10000) (hchar : n < 0xD800 ∨ 0xDFFF < n) :
    JsonText.escapeUnit (UInt16.ofNat n) = [UInt16.ofNat n] := by
  have hne : ∀ unit : UInt16, unit.toNat < 128 → UInt16.ofNat n ≠ unit := by
    rintro unit hunit rfl
    rw [UInt16.toNat_ofNat_of_lt' hhigh] at hunit
    omega
  have hescaped : ¬ (UInt16.ofNat n < 0x20 ∨ JsonText.isHighSurrogate (UInt16.ofNat n) = true ∨
      JsonText.isLowSurrogate (UInt16.ofNat n) = true) := by
    rw [UInt16.lt_iff_toNat_lt, UInt16.toNat_ofNat_of_lt' hhigh, highSurrogate_ofNat hhigh,
      lowSurrogate_ofNat hhigh]
    have hblank : (0x20 : UInt16).toNat = 32 := rfl
    omega
  rw [JsonText.escapeUnit, if_neg (hne _ (by decide)), if_neg (hne _ (by decide)), if_neg (hne _ (by decide)),
    if_neg (hne _ (by decide)), if_neg (hne _ (by decide)), if_neg (hne _ (by decide)),
    if_neg (hne _ (by decide)), if_neg hescaped]

/-- A character between quotes is its units between quotes. -/
theorem escape_char (c : Char) (text : Text) :
    JsonText.escape (charUnits c ++ text) = (quotedChar c).flatMap charUnits ++ JsonText.escape text := by
  have hrange : c.toNat < 0xD800 ∨ 0xDFFF < c.toNat ∧ c.toNat < 0x110000 := c.valid
  by_cases hplane : c.toNat < 0x10000
  · have hone : charUnits c = [UInt16.ofNat c.toNat] := if_pos hplane
    have hlone : JsonText.isHighSurrogate (UInt16.ofNat c.toNat) = false := by
      rw [Bool.eq_false_iff, ne_eq, highSurrogate_ofNat hplane]
      omega
    rw [hone, List.singleton_append, escape_cons hlone]
    by_cases hascii : c.toNat < 128
    · have hchar := quotedChar_ascii c.toNat hascii
      rw [Char.ofNat_toNat] at hchar
      rw [hchar]
    · rw [quotedChar_plain (by omega), escapeUnit_plain (by omega) hplane (by omega), List.flatMap_singleton,
        hone]
  · have hpair : charUnits c = [UInt16.ofNat (0xD800 + (c.toNat - 0x10000) / 0x400),
        UInt16.ofNat (0xDC00 + (c.toNat - 0x10000) % 0x400)] := if_neg hplane
    have hhigh : JsonText.isHighSurrogate (UInt16.ofNat (0xD800 + (c.toNat - 0x10000) / 0x400)) = true :=
      (highSurrogate_ofNat (by omega)).mpr (by omega)
    have hlow : JsonText.isLowSurrogate (UInt16.ofNat (0xDC00 + (c.toNat - 0x10000) % 0x400)) = true :=
      (lowSurrogate_ofNat (by omega)).mpr (by omega)
    rw [quotedChar_plain (by omega), List.flatMap_singleton, hpair]
    rw [List.cons_append, List.cons_append, List.nil_append, JsonText.escape, hhigh, hlow, Bool.and_self,
      if_pos rfl]
    rfl

theorem quoted_units (text : String) : utf16 (quoted text) = JsonText.quote (utf16 text) := by
  have hinner : ∀ chars : List Char, (chars.flatMap quotedChar).flatMap charUnits =
      JsonText.escape (chars.flatMap charUnits) := by
    intro chars
    induction chars with
    | nil => rfl
    | cons c chars ih => rw [List.flatMap_cons, List.flatMap_append, List.flatMap_cons, escape_char, ih]
  rw [quoted, utf16_ofList, List.flatMap_append, List.flatMap_cons, hinner]
  rfl

mutual

/-- One value, over texts of characters and over texts of units. -/
def Stands : Json → JsonText.Json → Prop
  | .null, json => json = .null
  | .bool value, json => json = .bool value
  | .num text, json => ∃ number, json = .num number ∧ number.text = utf16 text
  | .str text, json => json = .str (utf16 text)
  | .arr items, json => ∃ others, json = .arr others ∧ StandItems items others
  | .obj fields, json => ∃ members, json = .obj members ∧ StandFields fields members

def StandItems : List Json → List JsonText.Json → Prop
  | [], others => others = []
  | item :: items, others => ∃ first rest, others = first :: rest ∧ Stands item first ∧ StandItems items rest

def StandFields : List (String × Json) → List (Text × JsonText.Json) → Prop
  | [], members => members = []
  | (name, value) :: fields, members =>
    ∃ first rest, members = (utf16 name, first) :: rest ∧ Stands value first ∧ StandFields fields rest

end

theorem commas_units (texts : List String) :
    utf16 (",".intercalate texts) = JsonText.commas (texts.map utf16) := by
  induction texts with
  | nil =>
    rw [String.intercalate_nil]
    rfl
  | cons text texts ih =>
    cases texts with
    | nil =>
      rw [String.intercalate_singleton]
      rfl
    | cons next texts =>
      rw [String.intercalate_cons_cons, utf16_append, utf16_append, ih, List.append_assoc]
      rfl

theorem printMembers_cons {key : Text} {value : JsonText.Json} {json : Json} (h : Stands json value)
    (members : List (Text × JsonText.Json)) : JsonText.printMembers ((key, value) :: members) =
      (JsonText.quote key ++ 0x3A :: JsonText.print value) :: JsonText.printMembers members := by
  cases value with
  | undefined => cases json <;> simp [Stands] at h
  | _ => rw [JsonText.printMembers]; exact nofun

mutual

/-- The body that the client sends is the one text that the value is printed as. -/
theorem stringify_units {json : Json} {other : JsonText.Json} (h : Stands json other) :
    utf16 (stringify json) = JsonText.print other := by
  cases json with
  | null =>
    obtain rfl : other = .null := h
    decide
  | bool value =>
    obtain rfl : other = .bool value := h
    cases value <;> decide
  | num text =>
    obtain ⟨number, rfl, hnumber⟩ := h
    exact hnumber.symm
  | str text =>
    obtain rfl : other = .str (utf16 text) := h
    exact quoted_units text
  | arr items =>
    obtain ⟨others, rfl, hitems⟩ := h
    rw [stringify, utf16_append, utf16_append, commas_units, stringifyItems_units hitems, JsonText.print]
    rfl
  | obj fields =>
    obtain ⟨members, rfl, hfields⟩ := h
    rw [stringify, utf16_append, utf16_append, commas_units, stringifyFields_units hfields, JsonText.print]
    rfl

theorem stringifyItems_units {items : List Json} {others : List JsonText.Json} (h : StandItems items others) :
    (stringifyItems items).map utf16 = JsonText.printItems others := by
  cases items with
  | nil =>
    obtain rfl : others = [] := h
    rfl
  | cons item items =>
    obtain ⟨first, rest, rfl, hfirst, hrest⟩ := h
    rw [stringifyItems, List.map_cons, stringify_units hfirst, stringifyItems_units hrest, JsonText.printItems]

theorem stringifyFields_units {fields : List (String × Json)} {members : List (Text × JsonText.Json)}
    (h : StandFields fields members) :
    (stringifyFields fields).map utf16 = JsonText.printMembers members := by
  cases fields with
  | nil =>
    obtain rfl : members = [] := h
    rfl
  | cons field fields =>
    obtain ⟨name, value⟩ := field
    obtain ⟨first, rest, rfl, hfirst, hrest⟩ := h
    rw [stringifyFields, List.map_cons, utf16_append, utf16_append, quoted_units, stringify_units hfirst,
      stringifyFields_units hrest, printMembers_cons hfirst, List.append_assoc]
    rfl

end

end Units

section Query

inductive QueryValue
  | string (text : String)
  | number (text : String)
  | boolean (value : Bool)
deriving DecidableEq, Repr

def QueryValue.text : QueryValue → String
  | .string text => text
  | .number text => text
  | .boolean value => if value then "true" else "false"

abbrev Query := Table String (Option QueryValue)

/-- A byte as `application/x-www-form-urlencoded` writes it. -/
def formByte (byte : UInt8) : List Char :=
  let c := Char.ofNat byte.toNat
  if byte = 32 then ['+']
  else if byte < 128 ∧ (c.isAlphanum ∨ c = '*' ∨ c = '-' ∨ c = '.' ∨ c = '_') then [c]
  else ['%', (Nat.digitChar (byte.toNat / 16)).toUpper, (Nat.digitChar (byte.toNat % 16)).toUpper]

def formEncode (text : String) : String := String.ofList (text.toUTF8.data.toList.flatMap formByte)

def searchParams (query : Query) : Table String String :=
  query.rows.foldl (fun params row => match row.2 with
    | some value => params.set row.1 value.text
    | none => params) .empty

def paramsText (params : Table String String) : String :=
  "&".intercalate (params.rows.map fun row => formEncode row.1 ++ "=" ++ formEncode row.2)

def comQuery (path : String) (query : Option Query) : String :=
  match query with
  | none => path
  | some query =>
    let texto := paramsText (searchParams query)
    if texto = "" then path else path ++ "?" ++ texto

end Query

inductive Method
  | GET | POST | DELETE
deriving DecidableEq, Repr

def Method.text : Method → String
  | .GET => "GET"
  | .POST => "POST"
  | .DELETE => "DELETE"

structure BaasClientOptions where
  baseUrl : String
  apiKey : String
  signingSecret : Option String
deriving DecidableEq, Repr

structure RequestOptions where
  idempotencyKey : Option String := none
  query : Option Query := none

/-- What a resource method asks the client for. -/
structure RequestArgs where
  method : Method
  path : String
  body : Option Json
  options : RequestOptions

/-- What one request draws: the clock, the bytes of its nonce, and an id for its
idempotency key. -/
structure Draws where
  now : Int
  nonceBytes : List.Vector UInt8 16
  uuid : String

def generateNonce (bytes : List.Vector UInt8 16) : String :=
  String.ofList (bytes.toList.flatMap fun byte =>
    [Nat.digitChar (byte.toNat / 16), Nat.digitChar (byte.toNat % 16)])

structure SignatureHeaders where
  timestamp : String
  nonce : String
  signature : String
deriving DecidableEq, Repr

structure SentRequest where
  url : String
  method : Method
  authorization : String
  accept : String
  contentType : Option String
  idempotencyKey : Option String
  signatureHeaders : Option SignatureHeaders
  body : Option String
deriving DecidableEq, Repr

def endsWith (text ending : String) : Bool := ending.toList.isSuffixOf text.toList

def rotasAssinadas (path : String) : Bool := endsWith path "/pix/transfers" || endsWith path "/pix/refunds"

def trimSlashes (baseUrl : String) : String :=
  String.ofList (baseUrl.toList.reverse.dropWhile (· = '/')).reverse

def corpo (args : RequestArgs) : String :=
  match args.body with
  | none => ""
  | some body => stringify body

def exigeIdempotencia (args : RequestArgs) : Bool :=
  args.method = .POST && (rotasAssinadas args.path || endsWith args.path "/accounts")

def idempotencyHeader (args : RequestArgs) (uuid : String) : Option String :=
  match args.options.idempotencyKey with
  | some key => if key = "" then none else some key
  | none => if exigeIdempotencia args then some uuid else none

/-- The request as the client signs it. -/
def signedInput (args : RequestArgs) (draws : Draws) : CanonicalRequest :=
  { method := args.method.text
    path := comQuery args.path args.options.query
    rawBody := corpo args
    timestamp := toString (draws.now / 1000)
    nonce := generateNonce draws.nonceBytes }

def signatureHeaders (runtime : Runtime) (options : BaasClientOptions) (args : RequestArgs) (draws : Draws) :
    Option SignatureHeaders :=
  match options.signingSecret.filter (· ≠ "") with
  | none => none
  | some secret =>
    if rotasAssinadas args.path then
      let input := signedInput args draws
      some ⟨input.timestamp, input.nonce, buildSignature runtime secret input⟩
    else none

def request (runtime : Runtime) (options : BaasClientOptions) (args : RequestArgs)
    (draws : Draws) : SentRequest :=
  { url := trimSlashes options.baseUrl ++ comQuery args.path args.options.query
    method := args.method
    authorization := "Bearer " ++ options.apiKey
    accept := "application/json"
    contentType := args.body.map fun _ => "application/json"
    idempotencyKey := idempotencyHeader args draws.uuid
    signatureHeaders := signatureHeaders runtime options args draws
    body := args.body.map stringify }

section Nonce

theorem length_le_utf16Length (text : String) : text.toList.length ≤ utf16Length text := by
  rw [utf16Length]
  induction text.toList with
  | nil => rfl
  | cons c cs ih =>
    rw [List.map_cons, List.sum_cons, List.length_cons]
    split <;> omega

theorem sixteen_le_generateNonce (bytes : List.Vector UInt8 16) : 16 ≤ utf16Length (generateNonce bytes) := by
  have hlength : (generateNonce bytes).toList.length = 32 := by
    simp [generateNonce, List.length_flatMap]
  have hunits := length_le_utf16Length (generateNonce bytes)
  omega

end Nonce

end BaasConnector.Sdk.Client

namespace BaasConnector.Sdk.Resources

open BaasConnector.AdapterKit.Mapper BaasConnector.Lib.Keyed BaasConnector.Sdk.Client

/-- An input of a resource method, which is an object. -/
abbrev Input := List (String × Json)

def get (path : String) (options : RequestOptions) : RequestArgs := ⟨.GET, path, none, options⟩

def post (path : String) (input : Input) (options : RequestOptions) : RequestArgs :=
  ⟨.POST, path, some (.obj input), options⟩

def singleton (name : String) (value : Option QueryValue) : Query := Table.empty.set name value

namespace Accounts

def create (input : Input) (options : RequestOptions) : RequestArgs := post "/v1/accounts" input options

def get (id : String) (options : RequestOptions) : RequestArgs :=
  Resources.get ("/v1/accounts/" ++ id) options

def list (query : Option Query) (options : RequestOptions) : RequestArgs :=
  Resources.get "/v1/accounts" { options with query := query }

def block (id reason : String) (options : RequestOptions) : RequestArgs :=
  post ("/v1/accounts/" ++ id ++ "/block") [("reason", .str reason)] options

def unblock (id reason : String) (options : RequestOptions) : RequestArgs :=
  post ("/v1/accounts/" ++ id ++ "/unblock") [("reason", .str reason)] options

def balance (id : String) (query : Option Query) (options : RequestOptions) : RequestArgs :=
  Resources.get ("/v1/accounts/" ++ id ++ "/balance") { options with query := query }

def statement (id : String) (query : Option Query) (options : RequestOptions) : RequestArgs :=
  Resources.get ("/v1/accounts/" ++ id ++ "/statement") { options with query := query }

def onboarding (id : String) (options : RequestOptions) : RequestArgs :=
  Resources.get ("/v1/accounts/" ++ id ++ "/onboarding") options

end Accounts

namespace PixKeys

def create (accountId : String) (input : Input) (options : RequestOptions) : RequestArgs :=
  post ("/v1/accounts/" ++ accountId ++ "/pix/keys") input options

def list (accountId : String) (options : RequestOptions) : RequestArgs :=
  Resources.get ("/v1/accounts/" ++ accountId ++ "/pix/keys") options

def remove (accountId keyId : String) (options : RequestOptions) : RequestArgs :=
  ⟨.DELETE, "/v1/accounts/" ++ accountId ++ "/pix/keys/" ++ keyId, none, options⟩

def resolve (accountId key : String) (options : RequestOptions) : RequestArgs :=
  Resources.get ("/v1/accounts/" ++ accountId ++ "/pix/keys/resolve")
    { options with query := some (singleton "key" (some (.string key))) }

end PixKeys

namespace PixCharges

def create (accountId : String) (input : Input) (options : RequestOptions) : RequestArgs :=
  post ("/v1/accounts/" ++ accountId ++ "/pix/charges") input options

def get (accountId txid : String) (options : RequestOptions) : RequestArgs :=
  Resources.get ("/v1/accounts/" ++ accountId ++ "/pix/charges/" ++ txid) options

def list (accountId : String) (query : Option Query) (options : RequestOptions) : RequestArgs :=
  Resources.get ("/v1/accounts/" ++ accountId ++ "/pix/charges") { options with query := query }

def cancel (accountId txid : String) (options : RequestOptions) : RequestArgs :=
  post ("/v1/accounts/" ++ accountId ++ "/pix/charges/" ++ txid ++ "/cancel") [] options

end PixCharges

namespace PixTransfers

def send (accountId : String) (input : Input) (options : RequestOptions) : RequestArgs :=
  post ("/v1/accounts/" ++ accountId ++ "/pix/transfers") input options

def refund (accountId : String) (input : Input) (options : RequestOptions) : RequestArgs :=
  post ("/v1/accounts/" ++ accountId ++ "/pix/refunds") input options

end PixTransfers

namespace Transactions

def get (id : String) (options : RequestOptions) : RequestArgs :=
  Resources.get ("/v1/transactions/" ++ id) options

def list (query : Option Query) (options : RequestOptions) : RequestArgs :=
  Resources.get "/v1/transactions" { options with query := query }

end Transactions

namespace Operations

def get (id : String) (options : RequestOptions) : RequestArgs :=
  Resources.get ("/v1/operations/" ++ id) options

def reconcile (id : String) (options : RequestOptions) : RequestArgs :=
  post ("/v1/operations/" ++ id ++ "/reconcile") [] options

end Operations

/-- A call of a resource method. -/
inductive Call
  | accountsCreate (input : Input)
  | accountsGet (id : String)
  | accountsList (query : Option Query)
  | accountsBlock (id reason : String)
  | accountsUnblock (id reason : String)
  | accountsBalance (id : String) (query : Option Query)
  | accountsStatement (id : String) (query : Option Query)
  | accountsOnboarding (id : String)
  | pixKeysCreate (accountId : String) (input : Input)
  | pixKeysList (accountId : String)
  | pixKeysRemove (accountId keyId : String)
  | pixKeysResolve (accountId key : String)
  | pixChargesCreate (accountId : String) (input : Input)
  | pixChargesGet (accountId txid : String)
  | pixChargesList (accountId : String) (query : Option Query)
  | pixChargesCancel (accountId txid : String)
  | pixTransfersSend (accountId : String) (input : Input)
  | pixTransfersRefund (accountId : String) (input : Input)
  | transactionsGet (id : String)
  | transactionsList (query : Option Query)
  | operationsGet (id : String)
  | operationsReconcile (id : String)

def Call.args (call : Call) (options : RequestOptions) : RequestArgs :=
  match call with
  | .accountsCreate input => Accounts.create input options
  | .accountsGet id => Accounts.get id options
  | .accountsList query => Accounts.list query options
  | .accountsBlock id reason => Accounts.block id reason options
  | .accountsUnblock id reason => Accounts.unblock id reason options
  | .accountsBalance id query => Accounts.balance id query options
  | .accountsStatement id query => Accounts.statement id query options
  | .accountsOnboarding id => Accounts.onboarding id options
  | .pixKeysCreate accountId input => PixKeys.create accountId input options
  | .pixKeysList accountId => PixKeys.list accountId options
  | .pixKeysRemove accountId keyId => PixKeys.remove accountId keyId options
  | .pixKeysResolve accountId key => PixKeys.resolve accountId key options
  | .pixChargesCreate accountId input => PixCharges.create accountId input options
  | .pixChargesGet accountId txid => PixCharges.get accountId txid options
  | .pixChargesList accountId query => PixCharges.list accountId query options
  | .pixChargesCancel accountId txid => PixCharges.cancel accountId txid options
  | .pixTransfersSend accountId input => PixTransfers.send accountId input options
  | .pixTransfersRefund accountId input => PixTransfers.refund accountId input options
  | .transactionsGet id => Transactions.get id options
  | .transactionsList query => Transactions.list query options
  | .operationsGet id => Operations.get id options
  | .operationsReconcile id => Operations.reconcile id options

end BaasConnector.Sdk.Resources
