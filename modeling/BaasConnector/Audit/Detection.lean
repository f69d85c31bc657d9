import BaasConnector.Audit.Alarms
import BaasConnector.Lib.Numerals
import BaasConnector.Lib.Separators

namespace BaasConnector.Audit.Detection

open BaasConnector.Lib.Chains BaasConnector.Lib.Decimals BaasConnector.Lib.History
open BaasConnector.Lib.Separators
open BaasConnector.Audit.Log BaasConnector.Audit.Chain BaasConnector.Audit.Alarms

variable {H : Type}

/-- What someone with the rights of the database owner does to a stored row. -/
inductive Tampering (H : Type)
  | change (row changed : AuditRow H)
  | remove (row : AuditRow H)
deriving DecidableEq

/-- The columns that the hash covers. -/
def covered (row : AuditRow H) :=
  (row.sequence, row.occurredAt, row.actorType, row.actorId, row.action, row.outcome, row.resourceType,
    row.resourceId, row.before, row.after, row.requestId)

/-- A row of the window with another value in a covered column, and the stored
hashes as they were; or a row of the environment between two of the window. -/
def Tampers (rows : List (AuditRow H)) (window : Window) : Tampering H → Prop
  | .change row changed => row ∈ rows ∧ window.selects row = true ∧ changed.id = row.id ∧
      changed.environment = row.environment ∧ changed.prevHash = row.prevHash ∧
      changed.rowHash = row.rowHash ∧ covered changed ≠ covered row
  | .remove row => row ∈ rows ∧ row.environment.text = window.environment ∧
      ∃ a ∈ rows, ∃ c ∈ rows, window.selects a = true ∧ window.selects c = true ∧
        a.sequence < row.sequence ∧ row.sequence < c.sequence

def Tampering.apply [DecidableEq H] : Tampering H → List (AuditRow H) → List (AuditRow H)
  | .change row changed, rows => rows.map fun r => if r = row then changed else r
  | .remove row, rows => rows.erase row

variable (d : Digest H)

/-- The new values show in the text of the columns, and the row is still in the window. -/
def Shows (window : Window) : Tampering H → Prop
  | .change row changed => window.selects changed = true ∧
      payload d changed.sequence changed.toAuditEntry ≠ payload d row.sequence row.toAuditEntry
  | .remove _ => False

variable {d} {rows : List (AuditRow H)} {window : Window}

theorem hashed_change (hinj : Function.Injective d.sha256) {row changed : AuditRow H} (h : Hashed d row)
    (hprev : changed.prevHash = row.prevHash) (hhash : changed.rowHash = row.rowHash) :
    Hashed d changed ↔
      payload d changed.sequence changed.toAuditEntry = payload d row.sequence row.toAuditEntry := by
  rw [Hashed, hhash, ← h, hprev, chainHash, chainHash, hinj.eq_iff]
  exact ⟨fun he => String.append_left_inj _ |>.mp he, fun he => by rw [he]⟩

theorem mem_selection {row : AuditRow H} :
    row ∈ window.selection rows ↔ row ∈ rows ∧ window.selects row = true := by
  rw [Window.selection, mem_bySequence, List.mem_filter]

/-- A row of which '|' and NULL tell nothing: its columns are what their text says. -/
theorem payload_ne {n m : Nat} {a b : AuditEntry} (ha : ∀ text ∈ columns d n a, '|' ∉ text.toList)
    (hb : ∀ text ∈ columns d m b, '|' ∉ text.toList) (h : columns d n a ≠ columns d m b) :
    payload d n a ≠ payload d m b :=
  fun he => h (intercalate_inj ha hb (List.cons_ne_nil _ _) (List.cons_ne_nil _ _) he)

/-- Rows with different numbers have different hashes. -/
theorem chainHash_sequence (hinj : Function.Injective d.sha256) {n m : Nat} {a b : AuditEntry}
    {p q : Option H} (h : chainHash d n a p = chainHash d m b q) : n = m := by
  have hsplit : ∀ (n : Nat) (a : AuditEntry) (p : Option H), ∃ rest,
      (payload d n a ++ (p.map d.hex).getD "").toList = (toString n).toList ++ '|' :: rest := by
    intro n a p
    rw [payload, columns, String.intercalate_cons_of_ne_nil (List.cons_ne_nil _ _)]
    simp only [String.toList_append, List.append_assoc]
    exact ⟨_, rfl⟩
  obtain ⟨rest, hn⟩ := hsplit n a p
  obtain ⟨rest', hm⟩ := hsplit m b q
  have htext := congrArg String.toList (hinj h)
  rw [hn, hm] at htext
  rw [Nat.toString_eq_repr, Nat.toString_eq_repr, Nat.toList_repr, Nat.toList_repr] at htext
  exact digits_inj.mp (split_at_separator (digits_without (by decide) n) (digits_without (by decide) m) htext).1

/-- Taking one row out of the middle of a chain leaves no chain. -/
theorem removal_breaks (hinj : Function.Injective d.sha256) {pre post : List (AuditRow H)} {row : AuditRow H}
    (hsealed : ∀ r ∈ pre ++ row :: post, Hashed d r)
    (hsorted : (pre ++ row :: post).Pairwise fun a b => a.sequence < b.sequence)
    (hchain : (pre ++ row :: post).IsChain Over) (hpre : pre ≠ []) (hpost : post ≠ []) :
    ¬ (pre ++ post).IsChain Over := by
  intro h
  obtain ⟨x, hx⟩ := Option.isSome_iff_exists.mp (List.getLast?_isSome.mpr hpre)
  obtain ⟨y, hy⟩ := Option.isSome_iff_exists.mp (List.isSome_head?.mpr hpost)
  have hxy : Over x y := (List.isChain_append.mp h).2.2 x hx y hy
  have hrow : Over row y := (List.isChain_cons.mp (List.isChain_append.mp hchain).2.1).1 y hy
  have hmem : x ∈ pre := List.mem_of_getLast? hx
  have hhash : x.rowHash = row.rowHash := Option.some.inj (hxy.symm.trans hrow)
  rw [← hsealed x (List.mem_append_left _ hmem),
    ← hsealed row (List.mem_append_right _ List.mem_cons_self)] at hhash
  have hlt := (List.pairwise_append.mp hsorted).2.2 x hmem row List.mem_cons_self
  exact absurd (chainHash_sequence hinj hhash) (Nat.ne_of_lt hlt)

variable [DecidableEq H]

/-- Over a sealed log, tampering leaves every hash of the window right exactly
when it does not show. -/
theorem hashed_selection (hinj : Function.Injective d.sha256) (hsealed : ∀ row ∈ rows, Hashed d row)
    {t : Tampering H} (ht : Tampers rows window t) :
    (∀ row ∈ window.selection (t.apply rows), Hashed d row) ↔ ¬ Shows d window t := by
  cases t with
  | remove row =>
    simp only [Shows, not_false_eq_true, iff_true]
    intro r hr
    exact hsealed r (List.mem_of_mem_erase (mem_selection.mp hr).1)
  | change row changed =>
    obtain ⟨hrow, -, -, -, hprev, hhash, -⟩ := ht
    have hiff := hashed_change hinj (hsealed row hrow) hprev hhash
    constructor
    · rintro h ⟨hsel, hne⟩
      refine hne (hiff.mp (h changed (mem_selection.mpr ⟨?_, hsel⟩)))
      exact List.mem_map.mpr ⟨row, hrow, if_pos rfl⟩
    · intro h r hr
      obtain ⟨hmem, hsel⟩ := mem_selection.mp hr
      obtain ⟨r', hr', rfl⟩ := List.mem_map.mp hmem
      by_cases he : r' = row
      · rw [if_pos he] at hsel ⊢
        refine hiff.mpr (by_contra fun hne => h ⟨hsel, hne⟩)
      · rw [if_neg he]
        exact hsealed r' hr'

variable {s : Database H} {actions : List Action}

/-- In a run in which each commit carries on the chains, every removal of a row of
the window from between two others breaks the chain. -/
theorem removal_breaks_selection (hinj : Function.Injective d.sha256) (hs : after d actions = some s)
    (h : Always (fun before action => ∀ u, after d before = some u → Continues u action) actions)
    {row : AuditRow H} (ht : Tampers s.rows window (.remove row)) (hsel : window.selects row = true) :
    ¬ (window.selection (s.rows.erase row)).IsChain Over := by
  obtain ⟨hrow, henv, a, ha, c, hc, hasel, hcsel, har, hrc⟩ := ht
  have horderly := after_orderly d hs h
  have hL := selection_eq henv (horderly.chained row.environment)
  have hchain := selection_chain horderly.chained window
  have hsorted : (window.selection s.rows).Pairwise fun a b => a.sequence < b.sequence := by
    rw [hL]
    exact (horderly.chained row.environment).increasing.filter _
  have hsealed : ∀ r ∈ window.selection s.rows, Hashed d r :=
    fun r hr => (after_sealed hs).1 r (mem_selection.mp hr).1
  have herase : window.selection (s.rows.erase row) = (window.selection s.rows).erase row := by
    rw [hL, ← filter_selects henv, List.erase_filter, Window.selection]
    refine bySequence_of_pairwise ?_
    rw [← List.erase_filter, filter_selects henv, ← hL]
    exact hsorted.sublist List.erase_sublist
  obtain ⟨pre, post, hsplit⟩ := List.append_of_mem (mem_selection.mpr ⟨hrow, hsel⟩)
  have ha' : a ∈ window.selection s.rows := mem_selection.mpr ⟨ha, hasel⟩
  have hc' : c ∈ window.selection s.rows := mem_selection.mpr ⟨hc, hcsel⟩
  rw [herase]
  rw [hsplit] at hchain hsorted hsealed ha' hc' ⊢
  obtain ⟨hpreSorted, hpostSorted, hacross⟩ := List.pairwise_append.mp hsorted
  have hnot : row ∉ pre := fun hm => Nat.lt_irrefl _ (hacross row hm row List.mem_cons_self)
  rw [List.erase_append_right _ hnot, List.erase_cons_head]
  refine removal_breaks hinj hsealed hsorted hchain ?_ ?_
  · rintro rfl
    obtain rfl | hpost := List.mem_cons.mp ha'
    · exact Nat.lt_irrefl _ har
    · have hlt := (List.pairwise_cons.mp hpostSorted).1 a hpost
      omega
  · rintro rfl
    obtain hpre | hlast := List.mem_append.mp hc'
    · have hlt := hacross c hpre row List.mem_cons_self
      omega
    · rw [List.mem_singleton.mp hlast] at hrc
      exact Nat.lt_irrefl _ hrc

/-- Verification reports a change or a removal exactly when a changed row that is
still in the window has another text, or when some row of the window was not
inserted over the row that now stands before it. -/
theorem tampering_reported_iff (hinj : Function.Injective d.sha256) (hs : after d actions = some s)
    {t : Tampering H} (ht : Tampers s.rows window t) :
    (verifyAuditChain d (t.apply s.rows) window).divergent.isSome = true ↔
      Shows d window t ∨ ¬ (window.selection (t.apply s.rows)).IsChain Over := by
  rw [Option.isSome_iff_ne_none, Ne, verify_clean, hashed_selection hinj (after_sealed hs).1 ht]
  tauto

/-- Without a '|' in the columns, whatever changes their texts is reported while
the row stays in the window. -/
theorem change_reported (hinj : Function.Injective d.sha256) (hs : after d actions = some s)
    {row changed : AuditRow H} (ht : Tampers s.rows window (.change row changed))
    (hsel : window.selects changed = true)
    (hrow : ∀ text ∈ columns d row.sequence row.toAuditEntry, '|' ∉ text.toList)
    (hchanged : ∀ text ∈ columns d changed.sequence changed.toAuditEntry, '|' ∉ text.toList)
    (hne : columns d changed.sequence changed.toAuditEntry ≠ columns d row.sequence row.toAuditEntry) :
    (verifyAuditChain d ((Tampering.change row changed).apply s.rows) window).divergent.isSome = true := by
  rw [Option.isSome_iff_ne_none, Ne, verify_clean]
  rintro ⟨-, hhashed⟩
  exact (hashed_selection hinj (after_sealed hs).1 ht).mp hhashed ⟨hsel, payload_ne hchanged hrow hne⟩

theorem removal_reported (hinj : Function.Injective d.sha256) (hs : after d actions = some s)
    (h : Always (fun before action => ∀ u, after d before = some u → Continues u action) actions)
    {row : AuditRow H} (ht : Tampers s.rows window (.remove row)) (hsel : window.selects row = true) :
    (verifyAuditChain d ((Tampering.remove row).apply s.rows) window).divergent.isSome = true := by
  rw [Option.isSome_iff_ne_none, Ne, verify_clean]
  rintro ⟨hchain, -⟩
  exact removal_breaks_selection hinj hs h ht hsel hchain

/-- Three inserts, one after the other. -/
def threeInserts : List Action :=
  serialRun ++ [.draw 2, .insert 2 (sampleEntry "aud_3" 3000), .commit 2]

def firstRow : AuditRow String := computeAuditChain plainDigest [] 1 (sampleEntry "aud_1" 1000)

def middleRow : AuditRow String := computeAuditChain plainDigest [firstRow] 2 (sampleEntry "aud_2" 2000)

def lastRow : AuditRow String :=
  computeAuditChain plainDigest [firstRow, middleRow] 3 (sampleEntry "aud_3" 3000)

def renamed : Tampering String := .change middleRow { middleRow with action := "account.close" }

theorem threeInserts_after : ∃ s, after plainDigest threeInserts = some s ∧
    s.rows = [firstRow, middleRow, lastRow] := ⟨_, rfl, rfl⟩

/-- The middle row with another action is reported, and so is the log without it. -/
theorem tampering_reported_iff_middle : ∃ s, after plainDigest threeInserts = some s ∧
    (verifyAuditChain plainDigest (renamed.apply s.rows) wholeWindow).divergent.isSome = true ∧
      (verifyAuditChain plainDigest ((Tampering.remove middleRow).apply s.rows)
        wholeWindow).divergent.isSome = true := by
  obtain ⟨s, hs, hrows⟩ := threeInserts_after
  have hrenamed : Tampers s.rows wholeWindow renamed := by
    rw [hrows]
    exact ⟨by simp, by decide, rfl, rfl, rfl, rfl,
      by simp [covered, middleRow, computeAuditChain, sampleEntry]⟩
  have hremoved : Tampers s.rows wholeWindow (.remove middleRow) := by
    rw [hrows]
    exact ⟨by simp, rfl, firstRow, by simp, lastRow, by simp, by decide, by decide, by decide, by decide⟩
  have hshows : Shows plainDigest wholeWindow renamed := ⟨by decide, by decide⟩
  have hbroken : ¬ (wholeWindow.selection ((Tampering.remove middleRow).apply s.rows)).IsChain Over := by
    rw [hrows]
    decide
  exact ⟨s, hs, (tampering_reported_iff Function.injective_id hs hrenamed).mpr (.inl hshows),
    (tampering_reported_iff Function.injective_id hs hremoved).mpr (.inr hbroken)⟩

/-- A request for an account whose id carries the separator. -/
def barredEntry : AuditEntry :=
  { sampleEntry "aud_1" 1000 with
    actorType := .API_KEY, actorId := some "key_1", outcome := .DENIED, resourceId := some "a|b" }

def barredRun : List Action := [.draw 0, .insert 0 barredEntry, .commit 0]

def barredRow : AuditRow String := computeAuditChain plainDigest [] 1 barredEntry

/-- The same text, cut at another place. -/
def shifted : Tampering String :=
  .change barredRow { barredRow with resourceType := "account|a", resourceId := some "b" }

theorem barredRun_after : ∃ s, after plainDigest barredRun = some s ∧ s.rows = [barredRow] :=
  ⟨_, rfl, rfl⟩

theorem barred_tampers : Tampers [barredRow] wholeWindow shifted := by
  refine ⟨by simp, by decide, rfl, rfl, rfl, rfl, ?_⟩
  simp [covered, barredRow, computeAuditChain, barredEntry]

/-- The changed row goes unnoticed. -/
theorem shifted_columns_unnoticed :
    ¬ ∀ (d : Digest String) (actions : List Action) (s : Database String) (window : Window)
      (t : Tampering String), Function.Injective d.sha256 → after d actions = some s →
      Tampers s.rows window t →
      (verifyAuditChain d (t.apply s.rows) window).divergent.isSome = true := by
  intro h
  obtain ⟨s, hs, hrows⟩ := barredRun_after
  have hreported := h plainDigest barredRun s wholeWindow shifted Function.injective_id hs
    (hrows ▸ barred_tampers)
  rw [hrows] at hreported
  revert hreported
  decide

end BaasConnector.Audit.Detection
