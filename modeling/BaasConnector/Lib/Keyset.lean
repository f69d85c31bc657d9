import Mathlib.Data.List.Nodup
import Mathlib.Data.List.Perm.Subperm
import Mathlib.Data.List.Sort
import Mathlib.Data.Prod.Lex
import Mathlib.Tactic.Common

namespace BaasConnector.Lib.Keyset

section Following

variable {τ β C : Type}

/-- Where a reader stands: at the end, or before the page after a cursor. -/
inductive Stage (C : Type)
  | ended
  | next (cursor : Option C)
deriving DecidableEq

def Stage.after (cursor : Option C) : Stage C := cursor.elim .ended (.next ∘ some)

/-- What the reads give up to one of them, each of the table as it then is. -/
def follow (read : τ → Option C → Option (List β × Option C)) (tables : ℕ → τ) :
    ℕ → Option (List β × Stage C)
  | 0 => some ([], .next none)
  | n + 1 =>
    match follow read tables n with
    | none => none
    | some (rows, .ended) => some (rows, .ended)
    | some (rows, .next cursor) =>
      (read (tables n) cursor).map fun page => (rows ++ page.1, Stage.after page.2)

variable {read : τ → Option C → Option (List β × Option C)} {tables : ℕ → τ}

theorem follow_ended {n m : ℕ} {rows : List β} (h : follow read tables n = some (rows, .ended))
    (hm : n ≤ m) : follow read tables m = some (rows, .ended) := by
  induction m, hm using Nat.le_induction with
  | base => exact h
  | succ m _ ih => rw [follow, ih]

theorem follow_end_unique {n m : ℕ} {rows rows' : List β} (h : follow read tables n = some (rows, .ended))
    (h' : follow read tables m = some (rows', .ended)) : rows = rows' := by
  have hn := follow_ended h (Nat.le_max_left n m)
  rw [follow_ended h' (Nat.le_max_right n m)] at hn
  exact (Prod.mk.inj (Option.some.inj hn)).1.symm

theorem follow_next {n : ℕ} {rows : List β} {cursor : Option C} {page : List β × Option C}
    (h : follow read tables n = some (rows, .next cursor)) (hread : read (tables n) cursor = some page) :
    follow read tables (n + 1) = some (rows ++ page.1, Stage.after page.2) := by
  rw [follow, h]
  simp only [hread, Option.map_some]

end Following

section Pages

variable {τ α β C K : Type} [LinearOrder K] (key : α → K) (view : α → β) (position : α → C)

/-- From the highest key down, none twice. -/
def Descending (rows : List α) : Prop := rows.Pairwise fun a b => key b < key a

def Below (cursor : Option α) (row : α) : Prop := ∀ c ∈ cursor, key row < key c

/-- The page after a row: the highest rows below it, and the last of them as the
next cursor if there are more. -/
structure IsPage (limit : ℕ) (rows : List α) (cursor : Option α) (all : List α)
    (page : List β × Option C) : Prop where
  descending : Descending key all
  below : ∀ row, row ∈ all ↔ row ∈ rows ∧ Below key cursor row
  data : page.1 = (all.take limit).map view
  next : page.2 = if limit < all.length then (all.take limit).getLast?.map position else none

/-- Every read of a row's cursor gives the page after the row. -/
def Pages (read : τ → Option C → Option (List β × Option C)) (shows : τ → List α) (limit : ℕ)
    (tables : ℕ → τ) : Prop :=
  ∀ n cursor, (∀ c ∈ cursor, ∃ m, c ∈ shows (tables m)) →
    ∃ all page, read (tables n) (cursor.map position) = some page ∧
      IsPage key view position limit (shows (tables n)) cursor all page

/-- The reads come to an end, and have then given every row that was there at the
first of them once, from the highest key down, and no row that was never there. -/
def Exact [DecidableEq α] (read : τ → Option C → Option (List β × Option C)) (shows : τ → List α)
    (tables : ℕ → τ) : Prop :=
  ∃ n rows, follow read tables n = some (rows.map view, .ended) ∧ Descending key rows ∧
    (∀ row ∈ shows (tables 0), rows.count row = 1) ∧ ∀ row ∈ rows, ∃ m, row ∈ shows (tables m)

/-- The rows at each read: no two of one identity, none of them lost by the next
read, and all among finitely many. -/
structure Growth {I : Type} (id : α → I) (all : List α) (tables : ℕ → List α) : Prop where
  distinct : ∀ n, ((tables n).map id).Nodup
  kept : ∀ n, tables n ⊆ tables (n + 1)
  within : ∀ n, tables n ⊆ all

variable {key view position}

theorem Growth.mono {I : Type} {id : α → I} {all : List α} {tables : ℕ → List α}
    (h : Growth id all tables) {n m : ℕ} (hm : n ≤ m) : tables n ⊆ tables m := by
  induction m, hm using Nat.le_induction with
  | base => exact List.Subset.refl _
  | succ m _ ih => exact List.Subset.trans ih (h.kept m)

theorem growth_const {I : Type} {id : α → I} {all rows : List α} (hd : (rows.map id).Nodup)
    (hs : rows ⊆ all) : Growth id all fun _ => rows :=
  ⟨fun _ => hd, fun _ => List.Subset.refl _, fun _ => hs⟩

theorem descending_of_sorted {rows : List α} (hd : rows.Nodup)
    (hi : ∀ a ∈ rows, ∀ b ∈ rows, key a = key b → a = b) :
    Descending key (rows.insertionSort fun a b => key b ≤ key a) := by
  have hsorted := List.pairwise_insertionSort (fun a b => key b ≤ key a) rows
  have hperm := List.perm_insertionSort (fun a b => key b ≤ key a) rows
  have hmem : ∀ {row}, row ∈ rows.insertionSort (fun a b => key b ≤ key a) → row ∈ rows :=
    fun h => hperm.mem_iff.mp h
  refine (hsorted.and (hperm.nodup_iff.mpr hd)).imp_of_mem fun ha hb h => ?_
  exact lt_of_le_of_ne h.1 fun heq => h.2 (hi _ (hmem ha) _ (hmem hb) heq.symm)

theorem Descending.nodup {rows : List α} (h : Descending key rows) : rows.Nodup :=
  h.imp fun hlt heq => absurd hlt (by rw [heq]; exact lt_irrefl _)

theorem Descending.last_le {rows : List α} {last row : α} (h : Descending key rows)
    (hl : rows.getLast? = some last) (hr : row ∈ rows) : key last ≤ key row := by
  obtain ⟨front, rfl⟩ := List.getLast?_eq_some_iff.mp hl
  obtain hmem | hmem := List.mem_append.mp hr
  · exact le_of_lt ((List.pairwise_append.mp h).2.2 row hmem last List.mem_cons_self)
  · rw [List.mem_singleton.mp hmem]

/-- What is not below the last row of a page is on the page. -/
theorem mem_take_of_le {all : List α} {limit : ℕ} {last row : α} (h : Descending key all)
    (hl : last ∈ all.take limit) (hr : row ∈ all) (hle : key last ≤ key row) : row ∈ all.take limit := by
  rw [← List.take_append_drop limit all] at hr
  obtain hmem | hmem := List.mem_append.mp hr
  · exact hmem
  · unfold Descending at h
    rw [← List.take_append_drop limit all] at h
    exact absurd ((List.pairwise_append.mp h).2.2 last hl row hmem) (not_lt_of_ge hle)

theorem Descending.append {rows page : List α} (hrows : Descending key rows) (hpage : Descending key page)
    (hbelow : ∀ row ∈ page, Below key rows.getLast? row) : Descending key (rows ++ page) := by
  refine List.pairwise_append.mpr ⟨hrows, hpage, fun a ha b hb => ?_⟩
  cases hlast : rows.getLast? with
  | none =>
    rw [List.getLast?_eq_none_iff.mp hlast] at ha
    cases ha
  | some last =>
    have hlt := hbelow b hb last (by rw [hlast]; exact rfl)
    exact lt_of_lt_of_le hlt (hrows.last_le hlast ha)

end Pages

section Run

variable {τ α β C K : Type} [LinearOrder K] {key : α → K} {view : α → β} {position : α → C}
  {shows : τ → List α} {tables : ℕ → τ} {limit : ℕ}
  {read : τ → Option C → Option (List β × Option C)}

/-- Where the reads stand: what was there at first is read down to the last row given. -/
inductive Standing (position : α → C) (first rows : List α) (n : ℕ) (key : α → K) : Stage C → Prop
  | ended : first ⊆ rows → Standing position first rows n key .ended
  | next : (∀ row ∈ first, ¬ Below key rows.getLast? row → row ∈ rows) → n ≤ rows.length →
      Standing position first rows n key (.next (rows.getLast?.map position))

/-- What holds after some reads. -/
structure Progress (key : α → K) (view : α → β) (position : α → C) (shows : τ → List α) (tables : ℕ → τ)
    (n : ℕ) (rows : List α) (got : List β × Stage C) : Prop where
  viewed : got.1 = rows.map view
  descending : Descending key rows
  sound : ∀ row ∈ rows, ∃ m, row ∈ shows (tables m)
  standing : Standing position (shows (tables 0)) rows n key got.2

theorem progress_zero :
    Progress key view position shows tables 0 [] (([], .next none) : List β × Stage C) where
  viewed := rfl
  descending := List.Pairwise.nil
  sound := nofun
  standing := .next (fun _ _ h => absurd (fun _ hc => nomatch hc) h) (Nat.zero_le _)

theorem getLast?_append_page {rows page : List α} (hne : page ≠ []) :
    (rows ++ page).getLast? = page.getLast? := by
  rw [List.getLast?_append_of_ne_nil _ hne]

/-- The page that follows the last row given takes the reads on. -/
theorem Progress.step {n : ℕ} {rows all : List α} {got : List β} {page : List β × Option C}
    (hlimit : 1 ≤ limit) (hfirst : shows (tables 0) ⊆ shows (tables n))
    (h : Progress key view position shows tables n rows (got, .next (rows.getLast?.map position)))
    (hread : ∀ row ∈ shows (tables 0), ¬ Below key rows.getLast? row → row ∈ rows) (hn : n ≤ rows.length)
    (hp : IsPage key view position limit (shows (tables n)) rows.getLast? all page) :
    Progress key view position shows tables (n + 1) (rows ++ all.take limit)
      (got ++ page.1, Stage.after page.2) := by
  have hseen : ∀ row ∈ shows (tables 0), row ∈ rows ∨ row ∈ all := by
    intro row hrow
    by_cases hb : Below key rows.getLast? row
    · exact Or.inr ((hp.below row).mpr ⟨hfirst hrow, hb⟩)
    · exact Or.inl (hread row hrow hb)
  constructor
  · rw [List.map_append, ← hp.data, ← h.viewed]
  · refine h.descending.append (hp.descending.sublist (List.take_sublist limit all)) fun row hrow => ?_
    exact ((hp.below row).mp (List.mem_of_mem_take hrow)).2
  · intro row hrow
    obtain hrow | hrow := List.mem_append.mp hrow
    · exact h.sound row hrow
    · exact ⟨n, ((hp.below row).mp (List.mem_of_mem_take hrow)).1⟩
  · dsimp only
    rw [hp.next]
    by_cases hmore : limit < all.length
    · have hne : all.take limit ≠ [] := by
        intro hnil
        have hlen := congrArg List.length hnil
        rw [List.length_take, List.length_nil] at hlen
        omega
      obtain ⟨last, hlast⟩ := Option.ne_none_iff_exists'.mp (mt List.getLast?_eq_none_iff.mp hne)
      rw [if_pos hmore]
      have hstage : Stage.after ((all.take limit).getLast?.map position) =
          Stage.next ((rows ++ all.take limit).getLast?.map position) := by
        rw [getLast?_append_page hne, hlast]
        rfl
      rw [hstage]
      refine .next (fun row hrow hb => List.mem_append.mpr ?_) ?_
      · obtain hin | hin := hseen row hrow
        · exact Or.inl hin
        · refine Or.inr (mem_take_of_le hp.descending (List.mem_of_getLast? hlast) hin
            (not_lt.mp fun hlt => ?_))
          apply hb
          rw [getLast?_append_page hne, hlast]
          intro c hc
          rw [← Option.mem_some_iff.mp hc]
          exact hlt
      · rw [List.length_append]
        have hpos := List.length_pos_of_ne_nil hne
        omega
    · rw [if_neg hmore]
      refine .ended fun row hrow => List.mem_append.mpr ?_
      rw [List.take_of_length_le (not_lt.mp hmore)]
      exact hseen row hrow

theorem follow_progress (hlimit : 1 ≤ limit) (hfirst : ∀ n, shows (tables 0) ⊆ shows (tables n))
    (hread : Pages key view position read shows limit tables) (n : ℕ) :
    ∃ got rows, follow read tables n = some got ∧ Progress key view position shows tables n rows got := by
  induction n with
  | zero => exact ⟨_, [], rfl, progress_zero⟩
  | succ n ih =>
    obtain ⟨⟨got, stage⟩, rows, hgot, hprogress⟩ := ih
    have hstanding := hprogress.standing
    dsimp only at hstanding
    cases hstanding with
    | ended hall =>
      exact ⟨_, rows, follow_ended hgot (Nat.le_succ n), hprogress.viewed, hprogress.descending,
        hprogress.sound, .ended hall⟩
    | next hpassed hn =>
      obtain ⟨all, page, hpage, hp⟩ := hread n rows.getLast? fun c hc =>
        hprogress.sound c (List.mem_of_getLast? hc)
      exact ⟨_, _, follow_next hgot hpage, hprogress.step hlimit (hfirst n) hpassed hn hp⟩

/-- Reads of such pages are exact, whatever rows come in between them. -/
theorem exact_of_pages [DecidableEq α] {all : List α} (position : α → C) (hlimit : 1 ≤ limit)
    (hfirst : ∀ n, shows (tables 0) ⊆ shows (tables n)) (hall : ∀ n, shows (tables n) ⊆ all)
    (hread : Pages key view position read shows limit tables) : Exact key view read shows tables := by
  obtain ⟨⟨got, stage⟩, rows, hgot, h⟩ := follow_progress hlimit hfirst hread (all.length + 1)
  have hsub : rows ⊆ all := fun row hrow => by
    obtain ⟨m, hm⟩ := h.sound row hrow
    exact hall m hm
  have hlen := (List.Nodup.subperm h.descending.nodup hsub).length_le
  have hstanding := h.standing
  dsimp only at hstanding
  cases hstanding with
  | ended hfirst =>
    refine ⟨all.length + 1, rows, ?_, h.descending, fun row hrow => ?_, h.sound⟩
    · rw [hgot, ← h.viewed]
    · exact List.count_eq_one_of_mem h.descending.nodup (hfirst hrow)
  | next _ hn => omega

end Run

end BaasConnector.Lib.Keyset
