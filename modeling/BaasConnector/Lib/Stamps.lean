import Mathlib.Algebra.BigOperators.Group.List.Basic
import Mathlib.Data.List.Sort

namespace BaasConnector.Lib.Stamps

variable {α : Type} {r : α → α → Prop} [DecidableRel r]

/-- The element that sorting puts last; of level ones, the one that came last. -/
def latest (r : α → α → Prop) [DecidableRel r] : List α → Option α
  | [] => none
  | a :: l =>
    match latest r l with
    | none => some a
    | some b => if r a b then some b else some a

theorem latest_cons_ne (a : α) (l : List α) : latest r (a :: l) ≠ none := by
  rw [latest]
  cases latest r l with
  | none => simp
  | some b =>
    dsimp only
    split <;> simp

theorem latest_eq_none {l : List α} : latest r l = none ↔ l = [] := by
  cases l with
  | nil => simp [latest]
  | cons a l => simp [latest_cons_ne]

section Preorder

variable [IsTrans α r] [Std.Total r]

omit [Std.Total r] in
theorem getLast?_orderedInsert {a : α} {l : List α} (h : l.Pairwise r) :
    (l.orderedInsert r a).getLast? =
      match l.getLast? with
      | none => some a
      | some b => if r a b then some b else some a := by
  induction l with
  | nil => rfl
  | cons b l ih =>
    obtain ⟨hb, hl⟩ := List.pairwise_cons.mp h
    by_cases hab : r a b
    · rw [List.orderedInsert_cons_of_le r l hab, List.getLast?_cons_cons]
      obtain ⟨c, hc⟩ : ∃ c, (b :: l).getLast? = some c := ⟨_, List.getLast?_cons⟩
      have hac : r a c := by
        obtain rfl | hmem := List.mem_cons.mp (List.mem_of_getLast? hc)
        · exact hab
        · exact IsTrans.trans a b c hab (hb c hmem)
      rw [hc]
      exact (if_pos hac).symm
    · rw [List.orderedInsert_of_not_le r l hab]
      cases l with
      | nil => simp [hab]
      | cons c l =>
        rw [List.getLast?_cons_cons, ← ih hl]
        obtain ⟨d, rest, hinsert⟩ := List.exists_cons_of_ne_nil
          (List.ne_nil_of_mem ((List.mem_orderedInsert r).mpr (.inl rfl) : a ∈ (c :: l).orderedInsert r a))
        rw [hinsert, List.getLast?_cons_cons]

theorem getLast?_insertionSort (l : List α) : (l.insertionSort r).getLast? = latest r l := by
  induction l with
  | nil => rfl
  | cons a l ih =>
    rw [List.insertionSort_cons, getLast?_orderedInsert (List.pairwise_insertionSort r l), ih, latest]

theorem latest_spec {l : List α} {m : α} (h : latest r l = some m) : m ∈ l ∧ ∀ a ∈ l, r a m := by
  induction l generalizing m with
  | nil => cases h
  | cons a l ih =>
    rw [latest] at h
    cases hl : latest r l with
    | none =>
      obtain rfl := latest_eq_none.mp hl
      rw [hl, Option.some.injEq] at h
      subst h
      exact ⟨List.mem_cons_self, by simpa using refl_of r a⟩
    | some b =>
      obtain ⟨hmem, hle⟩ := ih hl
      rw [hl] at h
      dsimp only at h
      split at h
      · next hab =>
        obtain rfl := Option.some.inj h
        refine ⟨List.mem_cons_of_mem a hmem, fun c hc => ?_⟩
        obtain rfl | hc := List.mem_cons.mp hc
        · exact hab
        · exact hle c hc
      · next hab =>
        obtain rfl := Option.some.inj h
        have hba := (Std.Total.total a b).resolve_left hab
        refine ⟨List.mem_cons_self, fun c hc => ?_⟩
        obtain rfl | hc := List.mem_cons.mp hc
        · exact refl_of r c
        · exact IsTrans.trans c b a (hle c hc) hba

omit [IsTrans α r] [Std.Total r] in
theorem latest_append_of_le {l l' : List α} {m : α} (h : latest r l' = some m) (hle : ∀ a ∈ l, r a m) :
    latest r (l ++ l') = some m := by
  induction l with
  | nil => exact h
  | cons a l ih =>
    rw [List.cons_append, latest, ih fun b hb => hle b (List.mem_cons_of_mem a hb)]
    exact if_pos (hle a List.mem_cons_self)

/-- What comes after a list is not the latest, when something in the list is later. -/
theorem latest_append_of_not_le {l l' : List α} {m o : α} (h : latest r l' = some m) (ho : o ∈ l)
    (hom : ¬ r o m) : latest r (l ++ l') = latest r l := by
  induction l generalizing o with
  | nil => cases ho
  | cons a l ih =>
    rw [List.cons_append, latest, latest]
    by_cases hrest : ∃ b ∈ l, ¬ r b m
    · obtain ⟨b, hb, hbm⟩ := hrest
      rw [ih hb hbm]
    · have hle : ∀ b ∈ l, r b m := fun b hb => by_contra fun hbm => hrest ⟨b, hb, hbm⟩
      have ham : ¬ r a m := by
        obtain rfl | ho := List.mem_cons.mp ho
        · exact hom
        · exact absurd (hle o ho) hom
      rw [latest_append_of_le h hle]
      cases hl : latest r l with
      | none => exact if_neg ham
      | some b =>
        have hab : ¬ r a b := fun hab => ham (IsTrans.trans a b m hab (hle b (latest_spec hl).1))
        dsimp only
        rw [if_neg ham, if_neg hab]

end Preorder

section Readings

variable {T G : Type} [LinearOrder T] [AddCommGroup G] (r) (instant : α → T) (stamp change : α → G)

def upTo (log : List α) (t : T) : List α := log.filter (instant · ≤ t)

/-- The balance at an instant, read from the stamp of the last row until then. -/
def reading (log : List α) (t : T) : G := ((latest r (upTo instant log t)).map stamp).getD 0

def total (log : List α) : G := (log.map change).sum

/-- Every reading is what the rows until then change. -/
def Explained (log : List α) : Prop :=
  ∀ t, reading r instant stamp log t = total change (upTo instant log t)

/-- A row that changes the balance comes after all earlier rows. One that does not
may also stand where it is never read, or before rows that change nothing together. -/
def InOrder (log : List α) (m : α) (net : G) : Prop :=
  (∀ o ∈ log, r o m) ∨ net = 0 ∧ ((∃ o ∈ log, instant o = instant m ∧ ¬ r o m) ∨
    total change (log.filter (instant m < instant ·)) = 0)

/-- Rows of one instant, with the running total on the last of them. -/
structure Batch (log batch : List α) (m : α) : Prop where
  last : latest r batch = some m
  level : ∀ e ∈ batch, instant e = instant m
  stamped : stamp m = total change log + total change batch

variable {r} {instant} {stamp} {change} {log batch : List α} {m : α} {t : T}

theorem total_append (l l' : List α) : total change (l ++ l') = total change l + total change l' := by
  rw [total, List.map_append, List.sum_append]
  rfl

theorem total_split (instant : α → T) (log : List α) (t : T) :
    total change log = total change (upTo instant log t) + total change (log.filter (t < instant ·)) := by
  unfold total upTo
  induction log with
  | nil => simp
  | cons a log ih =>
    rw [List.map_cons, List.sum_cons, ih]
    by_cases h : instant a ≤ t
    · simp [h, not_lt.mpr h, add_assoc]
    · simp [h, not_le.mp h, add_left_comm]

theorem upTo_append (l l' : List α) (t : T) :
    upTo instant (l ++ l') t = upTo instant l t ++ upTo instant l' t := List.filter_append l l'

theorem Batch.upTo_of_le (h : Batch r instant stamp change log batch m) (ht : instant m ≤ t) :
    upTo instant batch t = batch :=
  List.filter_eq_self.mpr fun e he => decide_eq_true ((h.level e he).le.trans ht)

theorem Batch.upTo_of_lt (h : Batch r instant stamp change log batch m) (ht : t < instant m) :
    upTo instant batch t = [] :=
  List.filter_eq_nil_iff.mpr fun e he => by simpa [h.level e he] using ht

/-- With the batch on top the reading is right when nothing of the log is later than that. -/
theorem explained_above (hb : Batch r instant stamp change log batch m) (ht : instant m ≤ t)
    (hle : ∀ o ∈ upTo instant log t, r o m) :
    reading r instant stamp (log ++ batch) t = total change (upTo instant (log ++ batch) t) ↔
      total change (log.filter (t < instant ·)) = 0 := by
  rw [reading, upTo_append, hb.upTo_of_le ht, latest_append_of_le hb.last hle, Option.map_some,
    Option.getD_some, hb.stamped, total_append, total_split instant log t]
  simp

theorem explained_before (hlog : Explained r instant stamp change log)
    (hb : Batch r instant stamp change log batch m) (ht : t < instant m) :
    reading r instant stamp (log ++ batch) t = total change (upTo instant (log ++ batch) t) := by
  rw [reading, upTo_append, hb.upTo_of_lt ht, List.append_nil]
  exact hlog t

section Steps

variable [IsTrans α r] [Std.Total r] (hlog : Explained r instant stamp change log)
  (hb : Batch r instant stamp change log batch m)
include hlog hb

/-- With the batch below something else the reading stays what it was. -/
theorem explained_below (ht : instant m ≤ t) {o : α} (ho : o ∈ upTo instant log t) (hom : ¬ r o m) :
    reading r instant stamp (log ++ batch) t = total change (upTo instant (log ++ batch) t) ↔
      total change batch = 0 := by
  rw [reading, upTo_append, hb.upTo_of_le ht, latest_append_of_not_le hb.last ho hom, total_append]
  change reading r instant stamp log t = _ ↔ _
  rw [hlog t]
  simp

/-- Rows of an instant leave every reading right just when they come in order. -/
theorem explained_append_iff (hinstant : ∀ a b, r a b → instant a ≤ instant b)
    (hbefore : ∀ a b, instant a < instant b → r a b) :
    Explained r instant stamp change (log ++ batch) ↔
      InOrder r instant change log m (total change batch) := by
  have hnot : ∀ {o}, ¬ r o m → instant m ≤ instant o := fun hom => not_lt.mp fun h => hom (hbefore _ _ h)
  constructor
  · intro h
    by_cases hall : ∀ o ∈ log, r o m
    · exact .inl hall
    · rw [not_forall₂] at hall
      obtain ⟨o, ho, hom⟩ := hall
      have hmem : o ∈ upTo instant log (instant o) := List.mem_filter.mpr ⟨ho, decide_eq_true (le_refl _)⟩
      refine .inr ⟨(explained_below hlog hb (hnot hom) hmem hom).mp (h _), ?_⟩
      by_cases hlevel : ∃ o ∈ log, instant o = instant m ∧ ¬ r o m
      · exact .inl hlevel
      · refine .inr ((explained_above hb (le_refl _) fun o ho => ?_).mp (h _))
        obtain ⟨ho, hle⟩ := List.mem_filter.mp ho
        obtain hlt | heq := lt_or_eq_of_le (of_decide_eq_true hle)
        · exact hbefore o m hlt
        · exact by_contra fun hom => hlevel ⟨o, ho, heq, hom⟩
  · intro h t
    obtain hlt | ht := lt_or_ge t (instant m)
    · exact explained_before hlog hb hlt
    · by_cases hbelow : ∃ o ∈ upTo instant log t, ¬ r o m
      · obtain ⟨o, ho, hom⟩ := hbelow
        refine (explained_below hlog hb ht ho hom).mpr ?_
        obtain hall | ⟨hnet, -⟩ := h
        · exact absurd (hall o (List.mem_of_mem_filter ho)) hom
        · exact hnet
      · have hle : ∀ o ∈ upTo instant log t, r o m := fun o ho =>
          by_contra fun hom => hbelow ⟨o, ho, hom⟩
        refine (explained_above hb ht hle).mpr ?_
        obtain hall | ⟨-, ⟨o, ho, heq, hom⟩ | hzero⟩ := h
        · have hnil : log.filter (t < instant ·) = [] :=
            List.filter_eq_nil_iff.mpr fun o ho => by
              simpa using (hinstant o m (hall o ho)).trans ht
          rw [hnil]
          rfl
        · exact absurd (hle o (List.mem_filter.mpr ⟨ho, decide_eq_true (heq.le.trans ht)⟩)) hom
        · rw [← hzero]
          refine congrArg (total change) (List.filter_congr fun o ho => decide_eq_decide.mpr ?_)
          refine ⟨fun h => lt_of_le_of_lt ht h, fun h => not_le.mp fun hot => ?_⟩
          have := hinstant o m (hle o (List.mem_filter.mpr ⟨ho, decide_eq_true hot⟩))
          exact absurd h (not_lt.mpr this)

end Steps

end Readings

end BaasConnector.Lib.Stamps
