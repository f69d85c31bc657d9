import Mathlib
import BaasConnector.Lib.JsonInjective
import BaasConnector.Lib.Keyed
import BaasConnector.Lib.Sorting

namespace BaasConnector.Idempotency.Fingerprint

open BaasConnector.Lib.CodeUnits BaasConnector.Lib.JsonText BaasConnector.Lib.Keyed BaasConnector.Lib.Sorting

variable (localeCompare : Text → Text → Int)

def byName {α : Type} (a b : Text × α) : Prop := localeCompare a.1 b.1 ≤ 0

instance {α : Type} : DecidableRel (byName localeCompare (α := α)) := fun a b =>
  inferInstanceAs (Decidable (localeCompare a.1 b.1 ≤ 0))

mutual

def canonicalJson : Json → Text
  | .arr items => 0x5B :: commas (canonicalItems items) ++ [0x5D]
  | .obj members =>
    let entries := (canonicalEntries members).insertionSort (byName localeCompare)
    0x7B :: commas (entries.map fun entry => quote entry.1 ++ 0x3A :: entry.2) ++ [0x7D]
  | json => printScalar json

def canonicalItems : List Json → List Text
  | [] => []
  | item :: items => canonicalJson item :: canonicalItems items

/-- The members that are not undefined, each with its text. -/
def canonicalEntries : List (Text × Json) → List (Text × Text)
  | [] => []
  | (_, .undefined) :: members => canonicalEntries members
  | (key, json) :: members => (key, canonicalJson json) :: canonicalEntries members

end

/-- `json ?? default`. -/
def orElse (json default : Json) : Json :=
  match json with
  | .undefined | .null => default
  | json => json

def payloadOf (body params connectionId : Json) : Json :=
  .obj [(units "body", orElse body .null), (units "params", orElse params (.obj [])),
    (units "connectionId", orElse connectionId .null)]

/-- A value that JSON can write, or an undefined one. The names of an object are its own. -/
inductive Proper : Json → Prop
  | scalar {json : Json} : json.isScalar = true → Proper json
  | arr {items : List Json} : (∀ item ∈ items, item ≠ .undefined) →
      (∀ item ∈ items, Proper item) → Proper (.arr items)
  | obj {members : List (Text × Json)} : (members.map Prod.fst).Nodup →
      (∀ member ∈ members, Proper member.2) →
      Proper (.obj members)

/-- A request with a JSON body. What a query holds is never null. -/
structure Request where
  body : Json
  params : Json
  connectionId : Json
  body_proper : body ≠ .undefined ∧ Proper body
  params_proper : params ≠ .undefined ∧ params ≠ .null ∧ Proper params
  connectionId_proper : connectionId ≠ .null ∧ Proper connectionId

def canonicalPayload (request : Request) : Text :=
  canonicalJson localeCompare (payloadOf request.body request.params request.connectionId)

def fingerprintRequest (sha256 : Text → Text) (request : Request) : Text :=
  sha256 (canonicalPayload localeCompare request)

def itemAt (i : Nat) (items : List Json) : Json := items[i]?.getD .undefined

def memberAt (key : Text) (members : List (Text × Json)) : Json := (lookup key members).getD .undefined

/-- Equal up to the order of members, and up to undefined ones, at every level. -/
inductive Same : Json → Json → Prop
  | scalar {json : Json} : json.isScalar = true → Same json json
  | arr {items items' : List Json} : items.length = items'.length →
      (∀ i, Same (itemAt i items) (itemAt i items')) → Same (.arr items) (.arr items')
  | obj {members members' : List (Text × Json)} :
      (∀ key, Same (memberAt key members) (memberAt key members')) →
      Same (.obj members) (.obj members')

mutual

/-- The value with the members of its objects in order, and without undefined ones. -/
def sorted : Json → Json
  | .arr items => .arr (sortedItems items)
  | .obj members => .obj ((sortedMembers members).insertionSort (byName localeCompare))
  | json => json

def sortedItems : List Json → List Json
  | [] => []
  | item :: items => sorted item :: sortedItems items

def sortedMembers : List (Text × Json) → List (Text × Json)
  | [] => []
  | (_, .undefined) :: members => sortedMembers members
  | (key, json) :: members => (key, sorted json) :: sortedMembers members

end

variable {localeCompare}

theorem sorted_scalar {json : Json} (h : json.isScalar = true) : sorted localeCompare json = json := by
  cases json with
  | arr items => cases h
  | obj members => cases h
  | _ => rfl

@[simp] theorem sorted_undefined : sorted localeCompare .undefined = .undefined := sorted_scalar rfl

theorem sorted_eq_undefined {json : Json} : sorted localeCompare json = .undefined ↔ json = .undefined := by
  cases json with
  | undefined => exact Iff.rfl
  | arr items => exact ⟨nofun, nofun⟩
  | obj members => exact ⟨nofun, nofun⟩
  | _ => exact ⟨nofun, nofun⟩

theorem sortedItems_eq (items : List Json) : sortedItems localeCompare items =
      items.map (sorted localeCompare) := by
  induction items with
  | nil => rfl
  | cons item items ih => rw [sortedItems, ih, List.map_cons]

theorem sortedMembers_undefined {key : Text} {json : Json} (members : List (Text × Json))
    (h : json = .undefined) :
    sortedMembers localeCompare ((key, json) :: members) = sortedMembers localeCompare members := by
  subst h
  rw [sortedMembers]

theorem sortedMembers_defined {key : Text} {json : Json} (members : List (Text × Json))
    (h : json ≠ .undefined) :
    sortedMembers localeCompare ((key, json) :: members) =
      (key, sorted localeCompare json) :: sortedMembers localeCompare members := by
  rw [sortedMembers]
  exact h

theorem canonicalEntries_defined {key : Text} {json : Json} (members : List (Text × Json))
    (h : json ≠ .undefined) :
    canonicalEntries localeCompare ((key, json) :: members) =
      (key, canonicalJson localeCompare json) :: canonicalEntries localeCompare members := by
  rw [canonicalEntries]
  exact h

theorem canonicalItems_eq {items : List Json}
    (h : ∀ item ∈ items, canonicalJson localeCompare item = print (sorted localeCompare item)) :
    canonicalItems localeCompare items = (sortedItems localeCompare items).map print := by
  induction items with
  | nil => rfl
  | cons item items ih =>
    obtain ⟨hitem, hitems⟩ := List.forall_mem_cons.1 h
    rw [canonicalItems, sortedItems, hitem, ih hitems, List.map_cons]

theorem canonicalEntries_eq {members : List (Text × Json)}
    (h : ∀ member ∈ members, canonicalJson localeCompare member.2 = print (sorted localeCompare member.2)) :
    canonicalEntries localeCompare members =
      (sortedMembers localeCompare members).map fun member => (member.1, print member.2) := by
  induction members with
  | nil => rfl
  | cons member members ih =>
    obtain ⟨key, json⟩ := member
    obtain ⟨hjson, hmembers⟩ := List.forall_mem_cons.1 h
    by_cases hundefined : json = .undefined
    · rw [sortedMembers_undefined members hundefined, ← ih hmembers, hundefined, canonicalEntries]
    · rw [sortedMembers_defined members hundefined, canonicalEntries_defined members hundefined,
        ih hmembers, List.map_cons]
      exact congrArg (fun text => (key, text) :: _) hjson

theorem mem_sortedMembers {key : Text} {value : Json} {members : List (Text × Json)} :
    (key, value) ∈ sortedMembers localeCompare members ↔
      ∃ json, (key, json) ∈ members ∧ json ≠ .undefined ∧ sorted localeCompare json = value := by
  induction members with
  | nil => simp [sortedMembers]
  | cons member members ih =>
    obtain ⟨name, json⟩ := member
    by_cases hundefined : json = .undefined
    · rw [sortedMembers_undefined members hundefined, ih]
      constructor
      · rintro ⟨json', hmem, hrest⟩
        exact ⟨json', List.mem_cons_of_mem _ hmem, hrest⟩
      · rintro ⟨json', hmem, hne, hrest⟩
        obtain heq | hmem := List.mem_cons.1 hmem
        · cases heq
          exact absurd hundefined hne
        · exact ⟨json', hmem, hne, hrest⟩
    · rw [sortedMembers_defined members hundefined, List.mem_cons, ih]
      constructor
      · rintro (heq | ⟨json', hmem, hrest⟩)
        · cases heq
          exact ⟨json, List.mem_cons_self .., hundefined, rfl⟩
        · exact ⟨json', List.mem_cons_of_mem _ hmem, hrest⟩
      · rintro ⟨json', hmem, hne, hrest⟩
        obtain heq | hmem := List.mem_cons.1 hmem
        · cases heq
          exact .inl (by rw [hrest])
        · exact .inr ⟨json', hmem, hne, hrest⟩

theorem ne_undefined_of_mem {members : List (Text × Json)} {member : Text × Json}
    (h : member ∈ (sortedMembers localeCompare members).insertionSort (byName localeCompare)) :
    member.2 ≠ .undefined := by
  obtain ⟨json, -, hne, hjson⟩ := mem_sortedMembers.1 ((List.mem_insertionSort _).1 h)
  rw [← hjson]
  exact fun hundefined => hne (sorted_eq_undefined.1 hundefined)

/-- The canonical text is the text of the value in order. -/
theorem canonicalJson_eq (json : Json) : canonicalJson localeCompare json =
      print (sorted localeCompare json) := by
  induction json using Json.induction with
  | scalar json hscalar =>
    cases json with
    | arr items => cases hscalar
    | obj members => cases hscalar
    | _ => rfl
  | arr items ih => rw [canonicalJson, sorted, print, canonicalItems_eq ih, printItems_eq]
  | obj members ih =>
    have hsort := List.map_insertionSort (r := byName localeCompare) (s := byName localeCompare)
      (fun member : Text × Json => (member.1, print member.2)) (sortedMembers localeCompare members)
        fun _ _ _ _ => Iff.rfl
    rw [canonicalJson, sorted, print, canonicalEntries_eq ih, printMembers_eq fun _ => ne_undefined_of_mem]
    rw [← hsort, List.map_map]
    rfl

theorem sorted_defined {json : Json} (h : Proper json) (hne : json ≠ .undefined) :
    Defined (sorted localeCompare json) := by
  induction h with
  | scalar hscalar =>
    rw [sorted_scalar hscalar]
    exact .scalar hscalar hne
  | arr hdefined _ ih =>
    rw [sorted, sortedItems_eq]
    refine .arr fun item hitem => ?_
    obtain ⟨item, hmem, rfl⟩ := List.mem_map.1 hitem
    exact ih item hmem (hdefined item hmem)
  | obj _ _ ih =>
    rw [sorted]
    refine .obj fun member hmember => ?_
    obtain ⟨json, hmem, hjson, heq⟩ := mem_sortedMembers.1 ((List.mem_insertionSort _).1 hmember)
    rw [← heq]
    exact ih _ hmem hjson

theorem canonicalJson_eq_iff {json json' : Json} (h : Proper json)
    (hne : json ≠ .undefined) (h' : Proper json')
    (hne' : json' ≠ .undefined) : canonicalJson localeCompare json = canonicalJson localeCompare json' ↔
      sorted localeCompare json = sorted localeCompare json' := by
  rw [canonicalJson_eq, canonicalJson_eq]
  constructor
  · intro htext
    have htext' : print (sorted localeCompare json) ++ [] = print (sorted localeCompare json') ++ [] := by
      rw [htext]
    exact (print_inj _ (sorted_defined h hne) _ [] [] (sorted_defined h' hne') nofun nofun htext').1
  · intro heq
    rw [heq]

theorem sortedMembers_nodup {members : List (Text × Json)} (h : (members.map Prod.fst).Nodup) :
    ((sortedMembers localeCompare members).map Prod.fst).Nodup := by
  induction members with
  | nil => exact List.nodup_nil
  | cons member members ih =>
    obtain ⟨key, json⟩ := member
    rw [List.map_cons, List.nodup_cons] at h
    by_cases hundefined : json = .undefined
    · rw [sortedMembers_undefined members hundefined]
      exact ih h.2
    · rw [sortedMembers_defined members hundefined, List.map_cons, List.nodup_cons]
      refine ⟨fun hmem => h.1 ?_, ih h.2⟩
      obtain ⟨⟨name, value⟩, hvalue, rfl⟩ := List.mem_map.1 hmem
      obtain ⟨json', hjson', -⟩ := mem_sortedMembers.1 hvalue
      exact List.mem_map.2 ⟨_, hjson', rfl⟩

theorem inOrder_nodup {members : List (Text × Json)} (h : (members.map Prod.fst).Nodup) :
    (((sortedMembers localeCompare members).insertionSort (byName localeCompare)).map Prod.fst).Nodup :=
  ((List.perm_insertionSort _ _).map Prod.fst).nodup_iff.2 (sortedMembers_nodup h)

theorem memberAt_eq {key : Text} {json : Json} {members : List (Text × Json)}
    (h : (members.map Prod.fst).Nodup)
    (hne : json ≠ .undefined) : memberAt key members = json ↔ (key, json) ∈ members := by
  rw [← lookup_eq_some h, memberAt]
  cases lookup key members with
  | none => exact ⟨fun heq => absurd heq.symm hne, nofun⟩
  | some json' => simp

/-- Sorting the members leaves each where its name finds it. -/
theorem memberAt_inOrder {key : Text} {members : List (Text × Json)} (h : (members.map Prod.fst).Nodup) :
    memberAt key ((sortedMembers localeCompare members).insertionSort (byName localeCompare)) =
      sorted localeCompare (memberAt key members) := by
  by_cases hundefined : memberAt key members = .undefined
  · rw [hundefined, sorted_undefined]
    by_contra hne
    have hmem := (memberAt_eq (inOrder_nodup h) hne).1 rfl
    obtain ⟨json, hjson, hdefined, -⟩ := mem_sortedMembers.1 ((List.mem_insertionSort _).1 hmem)
    exact hdefined (((memberAt_eq h hdefined).2 hjson).symm.trans hundefined)
  · rw [memberAt_eq (inOrder_nodup h) fun heq => hundefined (sorted_eq_undefined.1 heq),
      List.mem_insertionSort]
    exact mem_sortedMembers.2 ⟨_, (memberAt_eq h hundefined).1 rfl, hundefined, rfl⟩

/-- The names found the same way make the members in order the same. -/
theorem inOrder_eq {members members' : List (Text × Json)}
    (hcollates : ∀ l : List Text, Orders (fun a b => localeCompare a b ≤ 0) l)
    (h : (members.map Prod.fst).Nodup) (h' : (members'.map Prod.fst).Nodup)
    (hsame : ∀ key, sorted localeCompare (memberAt key members) = sorted localeCompare
      (memberAt key members')) :
    (sortedMembers localeCompare members).insertionSort (byName localeCompare) =
      (sortedMembers localeCompare members').insertionSort (byName localeCompare) := by
  have hperm : (sortedMembers localeCompare members).Perm (sortedMembers localeCompare members') := by
    rw [List.perm_ext_iff_of_nodup (sortedMembers_nodup h).of_map (sortedMembers_nodup h').of_map]
    have hside : ∀ {a b : List (Text × Json)}, (a.map Prod.fst).Nodup → (b.map Prod.fst).Nodup →
        (∀ key, sorted localeCompare (memberAt key a) = sorted localeCompare (memberAt key b)) →
        ∀ member ∈ sortedMembers localeCompare a, member ∈ sortedMembers localeCompare b := by
      rintro a b ha hb hab ⟨key, value⟩ hmem
      obtain ⟨json, hjson, hne, rfl⟩ := mem_sortedMembers.1 hmem
      have hfound := hab key
      rw [(memberAt_eq ha hne).2 hjson] at hfound
      have hne' : memberAt key b ≠ .undefined := by
        intro hundefined
        rw [hundefined, sorted_undefined] at hfound
        exact hne (sorted_eq_undefined.1 hfound)
      exact mem_sortedMembers.2 ⟨_, (memberAt_eq hb hne').1 rfl, hne', hfound.symm⟩
    exact fun member => ⟨hside h h' hsame member, hside h' h (fun key => (hsame key).symm) member⟩
  refine insertionSort_eq_of_perm ?_ hperm
  have hnames := hcollates ((sortedMembers localeCompare members).map Prod.fst)
  refine ⟨fun a ha b hb => ?_, fun a ha b hb c hc => ?_, fun a ha b hb hab hba => ?_⟩
  · exact hnames.total a.1 (List.mem_map_of_mem ha) b.1 (List.mem_map_of_mem hb)
  · exact hnames.trans a.1 (List.mem_map_of_mem ha) b.1 (List.mem_map_of_mem hb) c.1 (List.mem_map_of_mem hc)
  · have hname := hnames.antisymm a.1 (List.mem_map_of_mem ha) b.1 (List.mem_map_of_mem hb) hab hba
    exact List.inj_on_of_nodup_map (sortedMembers_nodup h) ha hb hname

theorem itemAt_sorted (i : Nat) (items : List Json) :
    itemAt i (items.map (sorted localeCompare)) = sorted localeCompare (itemAt i items) := by
  rw [itemAt, itemAt, List.getElem?_map]
  cases items[i]? with
  | none => exact sorted_undefined.symm
  | some item => rfl

theorem eq_of_itemAt {items items' : List Json} (hlength : items.length = items'.length)
    (h : ∀ i, itemAt i items = itemAt i items') : items = items' := by
  refine List.ext_getElem hlength fun i hi hi' => ?_
  simpa [itemAt, hi, hi'] using h i

theorem itemAt_mem (i : Nat) (items : List Json) : itemAt i items = .undefined ∨ itemAt i items ∈ items := by
  rw [itemAt]
  cases hitem : items[i]? with
  | none => exact .inl rfl
  | some item => exact .inr (List.mem_of_getElem? hitem)

theorem itemAt_proper {items : List Json} (h : ∀ item ∈ items, Proper item) (i : Nat) :
    Proper (itemAt i items) := by
  rw [itemAt]
  cases hitem : items[i]? with
  | none => exact .scalar rfl
  | some item => exact h item (List.mem_of_getElem? hitem)

theorem memberAt_proper {members : List (Text × Json)} (hnodup : (members.map Prod.fst).Nodup)
    (h : ∀ member ∈ members, Proper member.2) (key : Text) : Proper (memberAt key members) := by
  by_cases hundefined : memberAt key members = .undefined
  · rw [hundefined]
    exact .scalar rfl
  · exact h _ ((memberAt_eq hnodup hundefined).1 rfl)

theorem Proper.arr_items {items : List Json} (h : Proper (.arr items)) : ∀ item ∈ items, Proper item := by
  cases h with
  | scalar hscalar => cases hscalar
  | arr _ h => exact h

theorem Proper.obj_members {members : List (Text × Json)} (h : Proper (.obj members)) :
    (members.map Prod.fst).Nodup ∧ ∀ member ∈ members, Proper member.2 := by
  cases h with
  | scalar hscalar => cases hscalar
  | obj hnodup h => exact ⟨hnodup, h⟩

theorem Same.sorted_eq {json json' : Json} (hcollates : ∀ l : List Text,
      Orders (fun a b => localeCompare a b ≤ 0) l)
    (h : Same json json') (hproper : Proper json) (hproper' : Proper json') :
    sorted localeCompare json = sorted localeCompare json' := by
  induction h with
  | scalar _ => rfl
  | arr hlength _ ih =>
    rw [sorted, sorted, sortedItems_eq, sortedItems_eq]
    refine congrArg Json.arr (eq_of_itemAt (by simpa using hlength) fun i => ?_)
    rw [itemAt_sorted, itemAt_sorted]
    exact ih i (itemAt_proper hproper.arr_items i) (itemAt_proper hproper'.arr_items i)
  | obj _ ih =>
    obtain ⟨hnodup, hmembers⟩ := hproper.obj_members
    obtain ⟨hnodup', hmembers'⟩ := hproper'.obj_members
    rw [sorted, sorted]
    refine congrArg Json.obj (inOrder_eq hcollates hnodup hnodup' fun key => ?_)
    exact ih key (memberAt_proper hnodup hmembers key) (memberAt_proper hnodup' hmembers' key)

theorem same_of_undefined {json json' : Json} (h : json = .undefined)
    (heq : sorted localeCompare json = sorted localeCompare json') : Same json json' := by
  rw [h, sorted_undefined] at heq
  rw [h, sorted_eq_undefined.1 heq.symm]
  exact .scalar rfl

theorem same_of_sorted_eq (json : Json) : ∀ json', Proper json → Proper json' →
    sorted localeCompare json = sorted localeCompare json' → Same json json' := by
  induction json using Json.induction with
  | scalar json hscalar =>
    intro json' _ _ heq
    rw [sorted_scalar hscalar] at heq
    have hscalar' : json'.isScalar = true := by
      cases json' with
      | arr items =>
        rw [heq] at hscalar
        cases hscalar
      | obj members =>
        rw [heq] at hscalar
        cases hscalar
      | _ => rfl
    rw [sorted_scalar hscalar'] at heq
    subst heq
    exact .scalar hscalar
  | arr items ih =>
    intro json' hproper hproper' heq
    cases json' with
    | arr items' =>
      rw [sorted, sorted, sortedItems_eq, sortedItems_eq] at heq
      have hitems := Json.arr.inj heq
      have hlength : items.length = items'.length := by simpa using congrArg List.length hitems
      refine .arr hlength fun i => ?_
      have hitem : sorted localeCompare (itemAt i items) = sorted localeCompare (itemAt i items') := by
        rw [← itemAt_sorted, hitems, itemAt_sorted]
      obtain hundefined | hmem := itemAt_mem i items
      · exact same_of_undefined hundefined hitem
      · exact ih _ hmem _ (itemAt_proper hproper.arr_items i) (itemAt_proper hproper'.arr_items i) hitem
    | _ => cases heq
  | obj members ih =>
    intro json' hproper hproper' heq
    cases json' with
    | obj members' =>
      obtain ⟨hnodup, hmembers⟩ := hproper.obj_members
      obtain ⟨hnodup', hmembers'⟩ := hproper'.obj_members
      rw [sorted, sorted] at heq
      refine .obj fun key => ?_
      have hmember : sorted localeCompare (memberAt key members) =
        sorted localeCompare (memberAt key members') := by
        rw [← memberAt_inOrder hnodup, Json.obj.inj heq, memberAt_inOrder hnodup']
      by_cases hundefined : memberAt key members = .undefined
      · exact same_of_undefined hundefined hmember
      · exact ih _ ((memberAt_eq hnodup hundefined).1 rfl) _ (memberAt_proper hnodup hmembers key)
          (memberAt_proper hnodup' hmembers' key) hmember
    | _ => cases heq

theorem canonicalJson_same_iff {json json' : Json}
    (hcollates : ∀ l : List Text, Orders (fun a b => localeCompare a b ≤ 0) l)
    (h : Proper json) (hne : json ≠ .undefined) (h' : Proper json') (hne' : json' ≠ .undefined) :
    canonicalJson localeCompare json = canonicalJson localeCompare json' ↔ Same json json' := by
  rw [canonicalJson_eq_iff h hne h' hne']
  exact ⟨same_of_sorted_eq json json' h h', fun hsame => hsame.sorted_eq hcollates h h'⟩

theorem orElse_eq {json default : Json} (hundefined : json ≠ .undefined) (hnull : json ≠ .null) :
    orElse json default = json := by
  unfold orElse
  split
  · exact absurd rfl hundefined
  · exact absurd rfl hnull
  · rfl

theorem orElse_null {json : Json} (h : json ≠ .undefined) : orElse json .null = json := by
  by_cases hnull : json = .null
  · rw [hnull, orElse]
  · exact orElse_eq h hnull

theorem orElse_proper {json : Json} (h : Proper json) : Proper (orElse json .null) := by
  by_cases hundefined : json = .undefined
  · rw [hundefined, orElse]
    exact .scalar rfl
  · rw [orElse_null hundefined]
    exact h

theorem same_scalar_iff {json json' : Json} (h : json.isScalar = true) : Same json json' ↔ json' = json := by
  constructor
  · intro hsame
    cases hsame with
    | scalar _ => rfl
    | arr _ _ => cases h
    | obj _ => cases h
  · rintro rfl
    exact .scalar h

theorem Same.symm {json json' : Json} (h : Same json json') : Same json' json := by
  induction h with
  | scalar hscalar => exact .scalar hscalar
  | arr hlength _ ih => exact .arr hlength.symm ih
  | obj _ ih => exact .obj ih

/-- A value that is missing is not taken for one that is there. -/
theorem same_orElse_iff {json json' : Json} (hne : json ≠ .null) (hne' : json' ≠ .null) :
    Same (orElse json .null) (orElse json' .null) ↔ Same json json' := by
  have hmissing : ∀ {json : Json}, json ≠ .null →
    (Same .null (orElse json .null) ↔ Same .undefined json) := by
    intro json hne
    rw [same_scalar_iff rfl, same_scalar_iff rfl]
    by_cases hundefined : json = .undefined
    · simp [hundefined, orElse]
    · rw [orElse_null hundefined]
      exact ⟨fun heq => absurd heq hne, fun heq => absurd heq hundefined⟩
  by_cases hundefined : json = .undefined
  · subst hundefined
    exact hmissing hne'
  · by_cases hundefined' : json' = .undefined
    · subst hundefined'
      have hsymm : ∀ {a b : Json}, Same a b ↔ Same b a := ⟨Same.symm, Same.symm⟩
      rw [hsymm, @hsymm json]
      exact hmissing hne
    · rw [orElse_null hundefined, orElse_null hundefined']

theorem same_payload_iff {a b c a' b' c' : Json} :
    Same (.obj [(units "body", a), (units "params", b), (units "connectionId", c)])
        (.obj [(units "body", a'), (units "params", b'), (units "connectionId", c')]) ↔
      Same a a' ∧ Same b b' ∧ Same c c' := by
  constructor
  · intro h
    cases h with
    | scalar hscalar => cases hscalar
    | obj h => exact ⟨h (units "body"), h (units "params"), h (units "connectionId")⟩
  · rintro ⟨ha, hb, hc⟩
    refine .obj fun key => ?_
    simp only [memberAt, lookup]
    split_ifs
    · exact ha
    · exact hb
    · exact hc
    · exact .scalar rfl

theorem payloadOf_proper (request : Request) :
    Proper (payloadOf request.body request.params request.connectionId) := by
  refine .obj (show [units "body", units "params", units "connectionId"].Nodup by decide)
    fun member hmember => ?_
  simp only [List.mem_cons, List.not_mem_nil, or_false] at hmember
  obtain rfl | rfl | rfl := hmember
  · exact orElse_proper request.body_proper.2
  · rw [orElse_eq request.params_proper.1 request.params_proper.2.1]
    exact request.params_proper.2.2
  · exact orElse_proper request.connectionId_proper.2

/-- Two requests have one fingerprint when they ask for the same thing. -/
theorem fingerprint_eq_iff (sha256 : Text → Text) (a b : Request)
    (hcollates : ∀ names : List Text, Orders (fun a b => localeCompare a b ≤ 0) names)
    (hsha256 : sha256 (canonicalPayload localeCompare a) = sha256 (canonicalPayload localeCompare b) →
      canonicalPayload localeCompare a = canonicalPayload localeCompare b) :
    fingerprintRequest localeCompare sha256 a = fingerprintRequest localeCompare sha256 b ↔
      Same a.body b.body ∧ Same a.params b.params ∧ Same a.connectionId b.connectionId := by
  have hpayload : fingerprintRequest localeCompare sha256 a = fingerprintRequest localeCompare sha256 b ↔
      canonicalPayload localeCompare a = canonicalPayload localeCompare b :=
    ⟨hsha256, fun heq => congrArg sha256 heq⟩
  rw [hpayload, canonicalPayload, canonicalPayload,
    canonicalJson_same_iff hcollates (payloadOf_proper a) nofun (payloadOf_proper b) nofun, payloadOf,
      payloadOf,
    same_payload_iff, orElse_null a.body_proper.1, orElse_null b.body_proper.1,
    orElse_eq a.params_proper.1 a.params_proper.2.1, orElse_eq b.params_proper.1 b.params_proper.2.1,
    same_orElse_iff a.connectionId_proper.1 b.connectionId_proper.1]

section Example

/-- The order of texts by their units, which is that of locales on small letters. -/
def byUnits (a b : Text) : Int :=
  if a.map UInt16.toNat ≤ b.map UInt16.toNat then if a = b then 0 else -1 else 1

theorem byUnits_le {a b : Text} : byUnits a b ≤ 0 ↔ a.map UInt16.toNat ≤ b.map UInt16.toNat := by
  unfold byUnits
  split_ifs <;> simp_all

theorem byUnits_orders (names : List Text) : Orders (fun a b => byUnits a b ≤ 0) names where
  total a _ b _ := by
    rw [byUnits_le, byUnits_le]
    exact Std.le_total
  trans a _ b _ c _ hab hbc := by
    rw [byUnits_le] at hab hbc ⊢
    exact Std.le_trans hab hbc
  antisymm a _ b _ hab hba := by
    rw [byUnits_le] at hab hba
    exact List.map_injective_iff.2 (fun x y hxy => UInt16.toNat_inj.1 hxy) (Std.le_antisymm hab hba)

def amount : Text × Json := (units "amount", .num ⟨units "100", by decide, forall_units (by decide)⟩)

def key : Text × Json := (units "key", .str (units "x"))

/-- A request with a body of two members, in some order. -/
def transfer (first second : Text × Json) (h : first.1 ≠ second.1) (hfirst : first.2.isScalar = true)
    (hsecond : second.2.isScalar = true) : Request where
  body := .obj [first, second]
  params := .obj []
  connectionId := .str (units "con_1")
  body_proper := ⟨nofun, .obj (by simpa using h) (by
    intro member hmember
    obtain rfl | rfl := by simpa using hmember
    · exact .scalar hfirst
    · exact .scalar hsecond)⟩
  params_proper := ⟨nofun, nofun, .obj List.nodup_nil nofun⟩
  connectionId_proper := ⟨nofun, .scalar rfl⟩

/-- The digest of the one text that is digested here. -/
def digest (text : Text) : Text :=
  if text = units "\x7b\"body\":\x7b\"amount\":100,\"key\":\"x\"\x7d,\"connectionId\":\"con_1\",\"params\":\x7b\x7d\x7d" then
    units "161f04f8a3e52845330562ad7e9cb2817870429388c7764172e7072b489d3b05"
  else []

theorem swapped_members_fingerprint :
    fingerprintRequest byUnits digest (transfer amount key (by decide) rfl rfl) =
      fingerprintRequest byUnits digest (transfer key amount (by decide) rfl rfl) ↔
    Same (.obj [amount, key]) (.obj [key, amount]) ∧ Same (.obj []) (.obj []) ∧
      Same (.str (units "con_1")) (.str (units "con_1")) :=
  fingerprint_eq_iff digest _ _ byUnits_orders fun _ => by decide

end Example

end BaasConnector.Idempotency.Fingerprint
