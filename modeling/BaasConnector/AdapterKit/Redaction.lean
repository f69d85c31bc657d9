import BaasConnector.Lib.JsonText

namespace BaasConnector.AdapterKit.Redaction

open BaasConnector.Lib.CodeUnits BaasConnector.Lib.JsonText

structure RedactionRules where
  maskPaths : List Text
  hashPaths : List Text
  dropPaths : List Text
  maxBodyBytes : Nat

def REDACTED : Text := units "[REDACTED]"

def star : UInt16 := 0x2A

def stars (text : Text) : Text := text.map fun unit => if isDigit unit then star else unit

/-- The text masked, but for its end. -/
def maskText (value : Text) : Text :=
  if 0x40 ∈ value then
    let parts := value.splitOn 0x40
    let localPart := parts.getD 0 []
    localPart.take 1 ++ List.replicate (max (localPart.length - 1) 1) star ++ 0x40 :: parts.getD 1 []
  else
    let digits := value.filter isDigit
    if digits.length = 11 ∨ digits.length = 14 then
      stars (value.take (value.length - 6)) ++ value.drop (value.length - 6)
    else if value.length ≤ 4 then REDACTED
    else List.replicate (value.length - 4) star ++ value.drop (value.length - 4)

def maskValue : Json → Text
  | .str text => maskText text
  | _ => REDACTED

/-- A pattern of segments against the path of a field. -/
def matchesSegments (segments path : List Text) : Bool :=
  match segments with
  | [] => decide (path = [])
  | first :: rest =>
    if first = [star] then
      if rest = [] then true
      else if rest.getLast? = some [star] then
        (List.range path.length).any fun i =>
          rest.dropLast.zipIdx.all fun segment => decide (path[i + segment.2]? = some segment.1)
      else decide (rest.length ≤ path.length) && decide (path.drop (path.length - rest.length) = rest)
    else
      decide (segments.length = path.length) &&
        (segments.zip path).all fun pair => decide (pair.1 = [star] ∨ pair.2 = pair.1)

def matchesPattern (pattern : Text) (path : List Text) : Bool := matchesSegments (pattern.splitOn 0x2E) path

def anyMatches (patterns : List Text) (path : List Text) : Bool :=
  patterns.any fun pattern => matchesPattern pattern path

def isContainer : Json → Bool
  | .arr _ | .obj _ => true
  | _ => false

def protoKey : Text := units "__proto__"

/-- Setting a property of a fresh object. The name of the prototype sets that instead. -/
def setMember (key : Text) (value : Json) (members : List (Text × Json)) : List (Text × Json) :=
  if key = protoKey then members else (key, value) :: members

variable (sha256Short : Text → Text) (rules : RedactionRules)

def hashMember : Json → Text
  | .str text => sha256Short text
  | _ => REDACTED

def maskMember (child : Json) : Text := if isContainer child then REDACTED else maskValue child

mutual

def walk (path : List Text) : Json → Json
  | .arr items => .arr (walkItems path 0 items)
  | .obj members => .obj (walkMembers path members)
  | json => json

def walkItems (path : List Text) (index : Nat) : List Json → List Json
  | [] => []
  | item :: items => walk (path ++ [units (toString index)]) item :: walkItems path (index + 1) items

def walkMembers (path : List Text) : List (Text × Json) → List (Text × Json)
  | [] => []
  | (key, child) :: members =>
    if anyMatches rules.dropPaths (path ++ [key]) then walkMembers path members
    else if anyMatches rules.hashPaths (path ++ [key]) then
      setMember key (.str (hashMember sha256Short child)) (walkMembers path members)
    else if anyMatches rules.maskPaths (path ++ [key]) then
      setMember key (.str (maskMember child)) (walkMembers path members)
    else setMember key (walk (path ++ [key]) child) (walkMembers path members)

end

inductive Redacted
  | whole (json : Json)
  | truncated (originalBytes : Nat) (digest preview : Text)

def redact (value : Json) : Redacted :=
  let redacted := walk sha256Short rules [] value
  match stringify redacted with
  | none => .whole redacted
  | some serialized =>
    if rules.maxBodyBytes < serialized.length then
      .truncated serialized.length (sha256Short serialized) (serialized.take rules.maxBodyBytes)
    else .whole redacted

end BaasConnector.AdapterKit.Redaction

namespace BaasConnector.AdapterKit.RedactedPayloads

open BaasConnector.Lib.CodeUnits BaasConnector.Lib.JsonText BaasConnector.AdapterKit.Redaction

variable (sha256Short : Text → Text) (rules : RedactionRules)

mutual

/-- Two values that differ only in what the rules name, the strings at masked and hashed members apart. -/
inductive Alike : List Text → Json → Json → Prop
  | same (path : List Text) (json : Json) : Alike path json json
  | arr {path : List Text} {items items' : List Json} :
      AlikeItems path 0 items items' → Alike path (.arr items) (.arr items')
  | obj {path : List Text} {members members' : List (Text × Json)} :
      AlikeMembers path members members' → Alike path (.obj members) (.obj members')

inductive AlikeItems : List Text → Nat → List Json → List Json → Prop
  | nil (path : List Text) (index : Nat) : AlikeItems path index [] []
  | cons {path : List Text} {index : Nat} {item item' : Json} {items items' : List Json} :
      Alike (path ++ [units (toString index)]) item item' → AlikeItems path (index + 1) items items' →
        AlikeItems path index (item :: items) (item' :: items')

inductive AlikeMembers : List Text → List (Text × Json) → List (Text × Json) → Prop
  | nil (path : List Text) : AlikeMembers path [] []
  | dropped {path : List Text} {key : Text} (child child' : Json) {members members' : List (Text × Json)} :
      anyMatches rules.dropPaths (path ++ [key]) = true → AlikeMembers path members members' →
        AlikeMembers path ((key, child) :: members) ((key, child') :: members')
  | hidden {path : List Text} {key : Text} {child child' : Json} {members members' : List (Text × Json)} :
      anyMatches rules.hashPaths (path ++ [key]) = true ∨ anyMatches rules.maskPaths (path ++ [key]) = true →
        child.isString = false → child'.isString = false → AlikeMembers path members members' →
          AlikeMembers path ((key, child) :: members) ((key, child') :: members')
  | kept {path : List Text} {key : Text} {child child' : Json} {members members' : List (Text × Json)} :
      Alike (path ++ [key]) child child' → AlikeMembers path members members' →
        AlikeMembers path ((key, child) :: members) ((key, child') :: members')

end

@[simp] theorem hashMember_of_not_string {child : Json} (h : child.isString = false) :
    hashMember sha256Short child = REDACTED := by
  cases child with
  | str text => simp [Json.isString] at h
  | _ => rfl

@[simp] theorem maskMember_of_not_string {child : Json} (h : child.isString = false) :
    maskMember child = REDACTED := by
  cases child with
  | str text => simp [Json.isString] at h
  | _ => rfl

theorem Alike.eq_or_not_string {path : List Text} {json json' : Json} (h : Alike rules path json json') :
    json = json' ∨ json.isString = false ∧ json'.isString = false := by
  cases h with
  | same => exact .inl rfl
  | arr h => exact .inr ⟨rfl, rfl⟩
  | obj h => exact .inr ⟨rfl, rfl⟩

mutual

theorem walk_alike {path : List Text} {json json' : Json} (h : Alike rules path json json') :
    walk sha256Short rules path json = walk sha256Short rules path json' := by
  cases h with
  | same => rfl
  | arr h => rw [walk, walk, walkItems_alike h]
  | obj h => rw [walk, walk, walkMembers_alike h]

theorem walkItems_alike {path : List Text} {index : Nat} {items items' : List Json}
    (h : AlikeItems rules path index items items') :
    walkItems sha256Short rules path index items = walkItems sha256Short rules path index items' := by
  cases h with
  | nil => rfl
  | cons hitem hitems => rw [walkItems, walkItems, walk_alike hitem, walkItems_alike hitems]

theorem walkMembers_alike {path : List Text} {members members' : List (Text × Json)}
    (h : AlikeMembers rules path members members') :
    walkMembers sha256Short rules path members = walkMembers sha256Short rules path members' := by
  cases h with
  | nil => rfl
  | dropped child child' hdrop hmembers =>
    rw [walkMembers, walkMembers, if_pos hdrop, if_pos hdrop, walkMembers_alike hmembers]
  | hidden hnamed hchild hchild' hmembers =>
    simp only [walkMembers, walkMembers_alike hmembers, hashMember_of_not_string sha256Short hchild,
      hashMember_of_not_string sha256Short hchild', maskMember_of_not_string hchild,
        maskMember_of_not_string hchild']
    obtain hnamed | hnamed := hnamed <;> simp [hnamed]
  | kept hchild hmembers =>
    rw [walkMembers, walkMembers, walkMembers_alike hmembers, walk_alike hchild]
    obtain rfl | ⟨hleft, hright⟩ := hchild.eq_or_not_string
    · rfl
    · rw [hashMember_of_not_string _ hleft, hashMember_of_not_string _ hright, maskMember_of_not_string hleft,
        maskMember_of_not_string hright]

end

theorem redact_alike {payload other : Json} (h : Alike rules [] payload other) :
    redact sha256Short rules payload = redact sha256Short rules other := by
  rw [redact, redact, walk_alike sha256Short rules h]

/-- A way down into a value. -/
inductive Step
  | item (index : Nat)
  | member (key : Text)

def Step.segment : Step → Text
  | .item index => units (toString index)
  | .member key => key

inductive Child : Json → Step → Json → Prop
  | item {items : List Json} {index : Nat} {json : Json} :
      items[index]? = some json → Child (.arr items) (.item index) json
  | member {members : List (Text × Json)} {key : Text} {json : Json} :
      (key, json) ∈ members → Child (.obj members) (.member key) json

/-- The value that lies at some steps. -/
inductive At : Json → List Step → Json → Prop
  | here (json : Json) : At json [] json
  | down {json child value : Json} {step : Step} {steps : List Step} :
      Child json step child → At child steps value → At json (step :: steps) value

def Named (path : List Text) : Prop :=
  anyMatches rules.dropPaths path = true ∨ anyMatches rules.hashPaths path = true ∨
    anyMatches rules.maskPaths path = true

def Step.Named (path : List Text) : Step → Prop
  | .item _ => False
  | .member key => RedactedPayloads.Named rules (path ++ [key])

/-- No member on the way is named. -/
def Unnamed (path : List Text) : List Step → Prop
  | [] => True
  | step :: steps => ¬ step.Named rules path ∧ Unnamed (path ++ [step.segment]) steps

/-- A value that no rule names, that lies under no named member and has none below it. -/
structure Free (payload : Json) (steps : List Step) (value : Json) : Prop where
  lies : At payload steps value
  unnamed : ∀ below json, At value below json → Unnamed rules [] (steps ++ below)

theorem At.child {json child : Json} {step : Step} (h : Child json step child) : At json [step] child :=
  .down h (.here child)

theorem At.append {json child value : Json} {steps below : List Step} (h : At json steps child)
    (hbelow : At child below value) : At json (steps ++ below) value := by
  induction h with
  | here json => exact hbelow
  | down hchild h ih => exact .down hchild (ih hbelow)

theorem Unnamed.below {path : List Text} {steps below : List Step} (h : Unnamed rules path (steps ++ below)) :
    Unnamed rules (path ++ steps.map Step.segment) below := by
  induction steps generalizing path with
  | nil => simpa using h
  | cons step steps ih => simpa using ih h.2

@[simp] theorem mem_setMember {key name : Text} {value json : Json} {members : List (Text × Json)} :
    (name, json) ∈ setMember key value members ↔
      key ≠ protoKey ∧ name = key ∧ json = value ∨ (name, json) ∈ members := by
  unfold setMember
  split
  · simp [*]
  · simp [*]

theorem walkItems_getElem? (path : List Text) (index : Nat) (items : List Json) (i : Nat) :
    (walkItems sha256Short rules path index items)[i]? =
      items[i]?.map (walk sha256Short rules (path ++ [units (toString (index + i))])) := by
  induction items generalizing index i with
  | nil => rfl
  | cons item items ih =>
    cases i with
    | zero => rfl
    | succ i => simpa [walkItems, Nat.add_assoc, Nat.add_comm 1] using ih (index + 1) i

theorem walkMembers_unnamed {path : List Text} {key : Text} {child : Json} {members : List (Text × Json)}
    (hnamed : ¬ Named rules (path ++ [key])) :
    walkMembers sha256Short rules path ((key, child) :: members) =
      setMember key (walk sha256Short rules (path ++ [key]) child)
      (walkMembers sha256Short rules path members) := by
  simp only [Named, not_or] at hnamed
  rw [walkMembers, if_neg hnamed.1, if_neg hnamed.2.1, if_neg hnamed.2.2]

/-- What stands at the head is left out, hidden or walked into. -/
theorem walkMembers_cases (path : List Text) (key : Text) (child : Json) (members : List (Text × Json)) :
    walkMembers sha256Short rules path ((key, child) :: members) =
      walkMembers sha256Short rules path members ∨
      ∃ value, walkMembers sha256Short rules path ((key, child) :: members) =
        setMember key value (walkMembers sha256Short rules path members) := by
  rw [walkMembers]
  split
  · exact .inl rfl
  · split
    · exact .inr ⟨_, rfl⟩
    · split
      · exact .inr ⟨_, rfl⟩
      · exact .inr ⟨_, rfl⟩

theorem mem_walkMembers {path : List Text} {key : Text} {out : Json} {members : List (Text × Json)}
    (hnamed : ¬ Named rules (path ++ [key])) :
    (key, out) ∈ walkMembers sha256Short rules path members ↔
      key ≠ protoKey ∧ ∃ child, (key, child) ∈ members ∧
      out = walk sha256Short rules (path ++ [key]) child := by
  induction members with
  | nil => simp [walkMembers]
  | cons member members ih =>
    obtain ⟨name, value⟩ := member
    by_cases hname : key = name
    · subst hname
      rw [walkMembers_unnamed sha256Short rules hnamed, mem_setMember, ih]
      simp only [List.mem_cons, Prod.mk.injEq, true_and, or_and_right, exists_or, exists_eq_left]
      tauto
    · have hcons : (∃ child, (key, child) ∈ (name, value) :: members ∧
          out = walk sha256Short rules (path ++ [key]) child) ↔
          ∃ child, (key, child) ∈ members ∧ out = walk sha256Short rules (path ++ [key]) child := by
        simp [hname]
      rw [hcons, ← ih]
      obtain heq | ⟨written, heq⟩ := walkMembers_cases sha256Short rules path name value members
      · rw [heq]
      · simp [heq, hname]

/-- What a walk leaves where nothing is named: the values that lay there, walked, but for the prototype's. -/
theorem child_walk {path : List Text} {json out : Json} {step : Step} (hnamed : ¬ step.Named rules path) :
    Child (walk sha256Short rules path json) step out ↔ step ≠ .member protoKey ∧
      ∃ child, Child json step child ∧ out = walk sha256Short rules (path ++ [step.segment]) child := by
  constructor
  · intro h
    cases json with
    | arr items =>
      rw [walk] at h
      cases h with
      | item h =>
        rw [walkItems_getElem?, Option.map_eq_some_iff, Nat.zero_add] at h
        obtain ⟨item, hitem, rfl⟩ := h
        exact ⟨nofun, item, .item hitem, rfl⟩
    | obj members =>
      rw [walk] at h
      cases h with
      | member h =>
        obtain ⟨hkey, child, hchild, rfl⟩ := (mem_walkMembers sha256Short rules hnamed).1 h
        exact ⟨fun hstep => hkey (Step.member.inj hstep), child, .member hchild, rfl⟩
    | _ => cases h
  · rintro ⟨hstep, child, h, rfl⟩
    cases h with
    | item h =>
      apply Child.item
      rw [walkItems_getElem?, h, Nat.zero_add]
      rfl
    | member h =>
      apply Child.member
      exact (mem_walkMembers sha256Short rules hnamed).2
        ⟨fun hkey => hstep (congrArg Step.member hkey), child, h, rfl⟩

theorem at_walk {path : List Text} {json out : Json} {steps : List Step}
    (hunnamed : Unnamed rules path steps) :
    At (walk sha256Short rules path json) steps out ↔ Step.member protoKey ∉ steps ∧
      ∃ value, At json steps value ∧ out = walk sha256Short rules (path ++ steps.map Step.segment) value := by
  induction steps generalizing path json with
  | nil =>
    constructor
    · intro h
      cases h
      exact ⟨nofun, json, .here json, by rw [List.map_nil, List.append_nil]⟩
    · rintro ⟨-, value, h, rfl⟩
      cases h
      rw [List.map_nil, List.append_nil]
      exact .here _
  | cons step steps ih =>
    have hpath : path ++ (step :: steps).map Step.segment = path ++ [step.segment] ++
      steps.map Step.segment := by simp
    constructor
    · intro h
      cases h with
      | down hchild h =>
        obtain ⟨hstep, child, hchild', rfl⟩ := (child_walk sha256Short rules hunnamed.1).1 hchild
        obtain ⟨hsteps, value, hat, rfl⟩ := (ih hunnamed.2).1 h
        exact ⟨by simp [hsteps, Ne.symm hstep], value, .down hchild' hat, by rw [hpath]⟩
    · rintro ⟨hsteps, value, h, rfl⟩
      simp only [List.mem_cons, not_or] at hsteps
      cases h with
      | down hchild h =>
        have hwalk := (child_walk sha256Short rules hunnamed.1).2 ⟨Ne.symm hsteps.1, _, hchild, rfl⟩
        exact .down hwalk ((ih hunnamed.2).2 ⟨hsteps.2, value, h, by rw [hpath]⟩)

/-- Nothing is named in a value, nor the prototype's. -/
def Clean (path : List Text) (json : Json) : Prop :=
  ∀ below value, At json below value → Unnamed rules path below ∧ Step.member protoKey ∉ below

variable {rules}

theorem Clean.child {path : List Text} {json child : Json} {step : Step} (h : Clean rules path json)
    (hchild : Child json step child) : Clean rules (path ++ [step.segment]) child := by
  intro below value hat
  have hbelow := h (step :: below) value (.down hchild hat)
  exact ⟨hbelow.1.2, fun hproto => hbelow.2 (List.mem_cons_of_mem step hproto)⟩

theorem Clean.member {path : List Text} {members : List (Text × Json)} {key : Text} {child : Json}
    (h : Clean rules path (.obj members)) (hmem : (key, child) ∈ members) :
    ¬ Named rules (path ++ [key]) ∧ key ≠ protoKey := by
  have hkey := h [.member key] child (At.child (.member hmem))
  exact ⟨hkey.1.1, fun heq => hkey.2 (by rw [heq]; exact List.mem_singleton_self _)⟩

mutual

theorem walk_clean {path : List Text} (json : Json) (h : Clean rules path json) :
    walk sha256Short rules path json = json := by
  cases json with
  | arr items =>
    rw [walk, walkItems_clean items fun i item hitem => by
      rw [Nat.zero_add]
      exact h.child (.item hitem)]
  | obj members =>
    rw [walk, walkMembers_clean members fun key child hmem => ⟨h.member hmem, h.child (.member hmem)⟩]
  | _ => rfl

theorem walkItems_clean {path : List Text} {index : Nat} (items : List Json)
    (h : ∀ i item, items[i]? = some item → Clean rules (path ++ [units (toString (index + i))]) item) :
    walkItems sha256Short rules path index items = items := by
  cases items with
  | nil => rfl
  | cons item items =>
    have hitem := walk_clean item (h 0 item rfl)
    rw [Nat.add_zero] at hitem
    rw [walkItems, hitem, walkItems_clean items fun i item hitem => by
      rw [Nat.add_right_comm]
      exact h (i + 1) item hitem]

theorem walkMembers_clean {path : List Text} (members : List (Text × Json))
    (h : ∀ key child, (key, child) ∈ members →
      (¬ Named rules (path ++ [key]) ∧ key ≠ protoKey) ∧ Clean rules (path ++ [key]) child) :
    walkMembers sha256Short rules path members = members := by
  cases members with
  | nil => rfl
  | cons member members =>
    obtain ⟨key, child⟩ := member
    obtain ⟨⟨hnamed, hkey⟩, hchild⟩ := h key child (List.mem_cons_self ..)
    rw [walkMembers_unnamed sha256Short rules hnamed, walk_clean child hchild,
      walkMembers_clean members fun name value hmem => h name value (List.mem_cons_of_mem _ hmem),
        setMember, if_neg hkey]

end

theorem Free.unnamed_steps {payload value : Json} {steps : List Step} (h : Free rules payload steps value) :
    Unnamed rules [] steps := by
  simpa using h.unnamed [] value (.here value)

theorem Free.below {payload value json : Json} {steps below : List Step} (h : Free rules payload steps value)
    (hbelow : At value below json) : Free rules payload (steps ++ below) json := by
  refine ⟨h.lies.append hbelow, fun under child hat => ?_⟩
  rw [List.append_assoc]
  exact h.unnamed (below ++ under) child (hbelow.append hat)

variable (rules)

/-- The values that no rule names are as they were, wherever none of them is the prototype's. -/
theorem free_unchanged_iff (payload : Json) :
    (∀ steps value, Free rules payload steps value → At (walk sha256Short rules [] payload) steps value) ↔
      ∀ steps value, Free rules payload steps value → Step.member protoKey ∉ steps := by
  constructor
  · intro h steps value hfree
    exact ((at_walk sha256Short rules hfree.unnamed_steps).1 (h steps value hfree)).1
  · intro h steps value hfree
    refine (at_walk sha256Short rules hfree.unnamed_steps).2 ⟨h steps value hfree, value, hfree.lies, ?_⟩
    refine (walk_clean sha256Short value fun below json hat => ⟨?_, ?_⟩).symm
    · exact (hfree.unnamed below json hat).below
    · exact fun hproto => h (steps ++ below) json (hfree.below hat) (List.mem_append_right steps hproto)

/-- Equal outputs for payloads that differ in what the rules name only, and nothing else changed. -/
def Redacts (payload : Json) : Prop :=
  (∀ other, Alike rules [] payload other → redact sha256Short rules payload =
    redact sha256Short rules other) ∧
    ∀ out, redact sha256Short rules payload = .whole out →
      ∀ steps value, Free rules payload steps value → At out steps value

def Untruncated (payload : Json) : Prop := ∃ out, redact sha256Short rules payload = .whole out

theorem whole_eq_walk {payload out : Json} (h : redact sha256Short rules payload = .whole out) :
    out = walk sha256Short rules [] payload := by
  unfold redact at h
  simp only at h
  split at h
  · exact (Redacted.whole.inj h).symm
  · split at h
    · cases h
    · exact (Redacted.whole.inj h).symm

/-- In a whole output only what lies at or under a member of the prototype's name is lost. -/
theorem redacts_iff (payload : Json) :
    Redacts sha256Short rules payload ↔ (Untruncated sha256Short rules payload →
      ∀ steps value, Free rules payload steps value → Step.member protoKey ∉ steps) := by
  constructor
  · rintro ⟨-, h⟩ ⟨out, hout⟩
    rw [← free_unchanged_iff sha256Short rules payload, ← whole_eq_walk sha256Short rules hout]
    exact h out hout
  · intro h
    refine ⟨fun other halike => redact_alike sha256Short rules halike, fun out hout => ?_⟩
    rw [whole_eq_walk sha256Short rules hout]
    exact (free_unchanged_iff sha256Short rules payload).2 (h ⟨out, hout⟩)

/-- A number, as a member of the prototype's name. -/
def prototype : Json := .obj [(protoKey, .num ⟨units "5", by decide, forall_units (by decide)⟩)]

def noRules : RedactionRules where
  maskPaths := []
  hashPaths := []
  dropPaths := []
  maxBodyBytes := 8192

theorem prototype_lost : ¬ Redacts id noRules prototype := by
  rintro ⟨-, h⟩
  have hout : redact id noRules prototype = .whole (.obj []) := by rfl
  have hfree : Free noRules prototype [.member protoKey]
    (.num ⟨units "5", by decide, forall_units (by decide)⟩) := by
    refine ⟨At.child (.member (List.mem_singleton_self _)), fun below json hat => ?_⟩
    cases hat with
    | here => exact ⟨by simp [Step.Named, Named, anyMatches, noRules], trivial⟩
    | down hchild => cases hchild
  have hat := h _ hout _ _ hfree
  cases hat with
  | down hchild => cases hchild with
    | member hmem => cases hmem

end BaasConnector.AdapterKit.RedactedPayloads
