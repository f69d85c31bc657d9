import BaasConnector.Lib.Collations
import BaasConnector.Lib.Keyset
import BaasConnector.Lib.Sorting
import BaasConnector.Pix.TransactionRows

namespace BaasConnector.Pix.StatementPages

open BaasConnector.Lib.Collations BaasConnector.Lib.Keyset BaasConnector.Lib.Sorting
open BaasConnector.Taxonomy.Status BaasConnector.Pix.TransactionRows

structure StatementPosition where
  date : String
  id : String
deriving DecidableEq, Repr

structure StatementFilter where
  environment : Environment
  accountId : String
  fromDate : String
  toDate : String
  statuses : List TransactionStatus
  limit : ℕ
  cursor : Option StatementPosition
deriving DecidableEq, Repr

/-- The data of a page, and the next cursor. -/
abbrev StatementPage := List TransactionRecord × Option StatementPosition

namespace Memory

/-- How the runtime compares two texts with `<`. -/
def less (a b : String) : Prop := codeUnits.key a < codeUnits.key b

instance (a b : String) : Decidable (less a b) :=
  inferInstanceAs (Decidable (codeUnits.key a < codeUnits.key b))

def selected (filter : StatementFilter) (row : TransactionRecord) : Bool :=
  row.environment = filter.environment && row.accountId = filter.accountId &&
    filter.statuses.contains row.status && !decide (less row.effectiveDate filter.fromDate) &&
    !decide (less filter.toDate row.effectiveDate)

variable (localeCompare : String → String → Int)

/-- What the rows are sorted by. -/
def compareRows (a b : TransactionRecord) : Int :=
  if a.effectiveDate = b.effectiveDate then localeCompare b.id a.id
  else localeCompare b.effectiveDate a.effectiveDate

def afterCursor (cursor : Option StatementPosition) (row : TransactionRecord) : Bool :=
  match cursor with
  | none => true
  | some cursor => decide (less row.effectiveDate cursor.date) ||
      (decide (row.effectiveDate = cursor.date) && decide (less row.id cursor.id))

def position (last : TransactionRecord) : StatementPosition := ⟨last.effectiveDate, last.id⟩

def statement (rows : List TransactionRecord) (filter : StatementFilter) : StatementPage :=
  let all := ((rows.filter (selected filter)).insertionSort fun a b =>
    compareRows localeCompare a b ≤ 0).filter (afterCursor filter.cursor)
  let page := all.take filter.limit
  (page, if filter.limit < all.length then page.getLast?.map position else none)

end Memory

namespace Prisma

variable (calendar : Calendar) (collation : Collation)

/-- A row of the table, whose date column holds the midnight of a date. -/
abbrev Stored :=
  { row : TransactionRow // midnight calendar (toDateOnly calendar row.effectiveDate) =
    some row.effectiveDate }

variable {calendar}

def inWindow (filter : StatementFilter) (gte lte : Int) (row : Stored calendar) : Bool :=
  row.1.environment = filter.environment && row.1.accountId = filter.accountId &&
    filter.statuses.contains row.1.status && decide (gte ≤ row.1.effectiveDate) &&
    decide (row.1.effectiveDate ≤ lte)

def beforeCursor (cursor : Option (Int × String)) (row : Stored calendar) : Bool :=
  match cursor with
  | none => true
  | some (day, id) => decide (row.1.effectiveDate < day) ||
      (decide (row.1.effectiveDate = day) && decide (collation.key row.1.id < collation.key id))

/-- What the rows are ordered by. -/
def rowKey (row : Stored calendar) : ℤ ×ₗ collation.Key :=
  toLex (row.1.effectiveDate, collation.key row.1.id)

def positionOf (last : Stored calendar) : StatementPosition :=
  ⟨toDateOnly calendar last.1.effectiveDate, last.1.id⟩

variable (calendar) in
/-- The instant of a cursor's date, if it is one. -/
def cursorDay : Option StatementPosition → Option (Option (Int × String))
  | none => some none
  | some cursor => (midnight calendar cursor.date).map fun day => some (day, cursor.id)

/-- The rows that the query selects, in its order. -/
def ordered (filter : StatementFilter) (gte lte : Int) (cursor : Option (Int × String))
    (table : List (Stored calendar)) : List (Stored calendar) :=
  (table.filter fun row => inWindow filter gte lte row && beforeCursor collation cursor row).insertionSort
    fun a b => rowKey collation b ≤ rowKey collation a

/-- No page where a date of the request is none. -/
def statement (table : List (Stored calendar)) (filter : StatementFilter) : Option StatementPage := do
  let gte ← midnight calendar filter.fromDate
  let lte ← midnight calendar filter.toDate
  let cursor ← cursorDay calendar filter.cursor
  let rows := (ordered collation filter gte lte cursor table).take (filter.limit + 1)
  let hasMore := decide (filter.limit < rows.length)
  let page := if hasMore then rows.take filter.limit else rows
  some (page.map fun row => toTransaction calendar row.1,
    if hasMore then page.getLast?.map positionOf else none)

end Prisma

section Exactness

/-- The key that a statement is ordered by. -/
def recordKey (r : TransactionRecord) : codeUnits.Key ×ₗ codeUnits.Key :=
  toLex (codeUnits.key r.effectiveDate, codeUnits.key r.id)

/-- However rows come in between the pages, and for every size of them. -/
def ExactMemory (localeCompare : String → String → Int) (filter : StatementFilter)
    (all : List TransactionRecord) : Prop :=
  ∀ tables, Growth (·.id) all tables → ∀ limit, 1 ≤ limit →
    Exact recordKey id
      (fun rows cursor => some
        (Memory.statement localeCompare rows { filter with limit := limit, cursor := cursor }))
      (fun rows => rows.filter (Memory.selected filter)) tables

def ExactPrisma (calendar : Calendar) (collation : Collation) (filter : StatementFilter)
    (all : List (Prisma.Stored calendar)) : Prop :=
  ∀ gte lte, midnight calendar filter.fromDate = some gte → midnight calendar filter.toDate = some lte →
    ∀ tables, Growth (·.1.id) all tables → ∀ limit, 1 ≤ limit →
      Exact (Prisma.rowKey collation) (fun row => toTransaction calendar row.1)
        (fun table cursor => Prisma.statement collation table
          { filter with limit := limit, cursor := cursor })
        (fun table => table.filter (Prisma.inWindow filter gte lte)) tables

/-- The matching rows are sorted as the cursor compares them. -/
def Agrees (localeCompare : String → String → Int) (filter : StatementFilter)
    (all : List TransactionRecord) : Prop :=
  ∀ a ∈ all.filter (Memory.selected filter), ∀ b ∈ all.filter (Memory.selected filter), a.id ≠ b.id →
    recordKey a < recordKey b →
      Memory.compareRows localeCompare b a ≤ 0 ∧ 0 < Memory.compareRows localeCompare a b

instance (localeCompare : String → String → Int) (filter : StatementFilter)
    (all : List TransactionRecord) : Decidable (Agrees localeCompare filter all) :=
  inferInstanceAs (Decidable (∀ a ∈ _, ∀ b ∈ _, _ → _ → _))

end Exactness

section MemoryPages

variable {localeCompare : String → String → Int} {filter : StatementFilter}
  {all rows : List TransactionRecord} {cursor : Option TransactionRecord}

theorem recordKey_lt {a b : TransactionRecord} : recordKey a < recordKey b ↔
    Memory.less a.effectiveDate b.effectiveDate ∨
      (a.effectiveDate = b.effectiveDate ∧ Memory.less a.id b.id) := by
  unfold recordKey
  rw [Prod.Lex.toLex_lt_toLex]
  dsimp only
  rw [codeUnits.injective.eq_iff]
  rfl

theorem recordKey_id {a b : TransactionRecord} (h : recordKey a = recordKey b) : a.id = b.id :=
  codeUnits.injective (Prod.mk.inj (toLex.injective h)).2

theorem afterCursor_iff {row : TransactionRecord} :
    Memory.afterCursor (cursor.map Memory.position) row = true ↔ Below recordKey cursor row := by
  unfold Below
  cases cursor with
  | none => simp [Memory.afterCursor]
  | some c =>
    simp only [Option.map_some, Memory.afterCursor, Memory.position, Bool.or_eq_true, Bool.and_eq_true,
      decide_eq_true_eq, Option.mem_some_iff, forall_eq', recordKey_lt]

/-- Rows of distinct ids are sorted by their keys. -/
theorem sorted_by_key (hA : Agrees localeCompare filter all) (hs : rows ⊆ all)
    (hd : (rows.map (·.id)).Nodup) :
    (rows.filter (Memory.selected filter)).insertionSort (fun a b =>
      Memory.compareRows localeCompare a b ≤ 0) =
    (rows.filter (Memory.selected filter)).insertionSort fun a b => recordKey b ≤ recordKey a := by
  have hmem : ∀ {row}, row ∈ rows.filter (Memory.selected filter) →
      row ∈ all.filter (Memory.selected filter) := fun h =>
    List.mem_filter.mpr ⟨hs (List.mem_filter.mp h).1, (List.mem_filter.mp h).2⟩
  apply insertionSort_congr
  refine ((List.pairwise_map.mp hd).sublist List.filter_sublist).imp_of_mem fun {a b} ha hb hne => ?_
  obtain hlt | heq | hlt := lt_trichotomy (recordKey a) (recordKey b)
  · have h := hA a (hmem ha) b (hmem hb) hne hlt
    exact ⟨fun hle => absurd h.2 (not_lt.mpr hle), fun hle => absurd hlt (not_lt.mpr hle)⟩
  · exact absurd (recordKey_id heq) hne
  · have h := hA b (hmem hb) a (hmem ha) hne.symm hlt
    exact ⟨fun _ => le_of_lt hlt, fun _ => h.1⟩

theorem selected_descending (hd : (rows.map (·.id)).Nodup) :
    Descending recordKey ((rows.filter (Memory.selected filter)).insertionSort
      fun a b => recordKey b ≤ recordKey a) := by
  refine descending_of_sorted ((List.Nodup.of_map _ hd).filter _) fun a ha b hb h => ?_
  exact List.inj_on_of_nodup_map hd (List.mem_filter.mp ha).1 (List.mem_filter.mp hb).1 (recordKey_id h)

theorem memory_page (hA : Agrees localeCompare filter all) (hs : rows ⊆ all)
    (hd : (rows.map (·.id)).Nodup) (limit : ℕ) :
    ∃ sorted, IsPage recordKey id Memory.position limit (rows.filter (Memory.selected filter)) cursor sorted
      (Memory.statement localeCompare rows
        { filter with limit := limit, cursor := cursor.map Memory.position }) := by
  refine ⟨((rows.filter (Memory.selected filter)).insertionSort fun a b =>
    recordKey b ≤ recordKey a).filter (Memory.afterCursor (cursor.map Memory.position)), ?_⟩
  have hstatement : Memory.statement localeCompare rows
      { filter with limit := limit, cursor := cursor.map Memory.position } =
      let all := ((rows.filter (Memory.selected filter)).insertionSort fun a b =>
        recordKey b ≤ recordKey a).filter (Memory.afterCursor (cursor.map Memory.position))
      (all.take limit, if limit < all.length then
        (all.take limit).getLast?.map Memory.position else none) := by
    rw [← sorted_by_key hA hs hd]
    rfl
  rw [hstatement]
  constructor
  · exact (selected_descending hd).sublist List.filter_sublist
  · intro row
    rw [List.mem_filter, List.mem_insertionSort, afterCursor_iff]
  · exact (List.map_id _).symm
  · rfl

theorem exactMemory_of_agrees (hA : Agrees localeCompare filter all) :
    ExactMemory localeCompare filter all := by
  intro tables hg limit hlimit
  have hsub : ∀ n, (tables n).filter (Memory.selected filter) ⊆ tables n := fun n =>
    List.filter_sublist.subset
  refine exact_of_pages Memory.position hlimit (fun n row hrow => ?_)
    (fun n => List.Subset.trans (hsub n) (hg.within n)) fun n cursor _ => ?_
  · obtain ⟨hrow, hsel⟩ := List.mem_filter.mp hrow
    exact List.mem_filter.mpr ⟨hg.mono (Nat.zero_le n) hrow, hsel⟩
  · obtain ⟨sorted, hpage⟩ := @memory_page localeCompare filter all (tables n) cursor hA (hg.within n)
      (hg.distinct n) limit
    exact ⟨sorted, _, rfl, hpage⟩

/-- One page of two rows shows the order that they are sorted into. -/
theorem pair_descending {x y : TransactionRecord} (h : ExactMemory localeCompare filter all)
    (hx : x ∈ all.filter (Memory.selected filter)) (hy : y ∈ all.filter (Memory.selected filter))
    (hne : x.id ≠ y.id) :
    Descending recordKey (if Memory.compareRows localeCompare x y ≤ 0 then [x, y] else [y, x]) := by
  obtain ⟨hx, hxs⟩ := List.mem_filter.mp hx
  obtain ⟨hy, hys⟩ := List.mem_filter.mp hy
  have hg : Growth (·.id) all fun _ => [x, y] := by
    refine growth_const ?_ fun row hrow => ?_
    · simpa using hne
    · obtain rfl | hrow := List.mem_cons.mp hrow
      · exact hx
      · rw [List.mem_singleton.mp hrow]
        exact hy
  obtain ⟨n, rows, hend, hdesc, -⟩ := h _ hg 2 (by decide)
  have hpage : Memory.statement localeCompare [x, y] { filter with limit := 2, cursor := none } =
      (if Memory.compareRows localeCompare x y ≤ 0 then [x, y] else [y, x], none) := by
    have hsel : ∀ row, Memory.selected { filter with limit := 2, cursor := none } row =
        Memory.selected filter row := fun _ => rfl
    have hafter : ∀ row, Memory.afterCursor none row = true := fun _ => rfl
    by_cases hle : Memory.compareRows localeCompare x y ≤ 0 <;>
      simp [Memory.statement, hafter, hsel, hxs, hys, hle]
  have hone := @follow_next _ _ _ (fun rows cursor => some (Memory.statement localeCompare rows
    { filter with limit := 2, cursor := cursor })) (fun _ => [x, y]) 0 [] none _ rfl (congrArg some hpage)
  rw [List.nil_append] at hone
  have hrows := follow_end_unique hend hone
  rw [List.map_id] at hrows
  rw [hrows] at hdesc
  exact hdesc

theorem agrees_of_exactMemory (h : ExactMemory localeCompare filter all) :
    Agrees localeCompare filter all := by
  intro a ha b hb hne hlt
  have hkeep := pair_descending h hb ha hne.symm
  have hswap := pair_descending h ha hb hne
  have hwrong : ¬ Descending recordKey [a, b] := fun hdesc =>
    lt_asymm hlt ((List.pairwise_cons.mp hdesc).1 b List.mem_cons_self)
  constructor
  · by_contra hle
    rw [if_neg hle] at hkeep
    exact hwrong hkeep
  · by_contra hle
    rw [if_pos (not_lt.mp hle)] at hswap
    exact hwrong hswap

end MemoryPages

section PrismaPages

variable {calendar : Calendar} {collation : Collation} {filter : StatementFilter}
  {table all : List (Prisma.Stored calendar)} {cursor : Option (Prisma.Stored calendar)} {gte lte : Int}

theorem rowKey_id {a b : Prisma.Stored calendar} (h : Prisma.rowKey collation a = Prisma.rowKey collation b) :
    a.1.id = b.1.id :=
  collation.injective (Prod.mk.inj (toLex.injective h)).2

theorem cursorDay_positionOf : Prisma.cursorDay calendar (cursor.map Prisma.positionOf) =
    some (cursor.map fun row => (row.1.effectiveDate, row.1.id)) := by
  cases cursor with
  | none => rfl
  | some row => simp only [Option.map_some, Prisma.cursorDay, Prisma.positionOf, row.2]

theorem beforeCursor_iff {row : Prisma.Stored calendar} :
    Prisma.beforeCursor collation (cursor.map fun row => (row.1.effectiveDate, row.1.id)) row = true ↔
      Below (Prisma.rowKey collation) cursor row := by
  unfold Below
  cases cursor with
  | none => simp [Prisma.beforeCursor]
  | some c =>
    simp only [Option.map_some, Prisma.beforeCursor, Bool.or_eq_true, Bool.and_eq_true, decide_eq_true_eq,
      Option.mem_some_iff, forall_eq', Prisma.rowKey, Prod.Lex.toLex_lt_toLex]

theorem lt_length_take {α : Type} (rows : List α) (limit : ℕ) :
    limit < (rows.take (limit + 1)).length ↔ limit < rows.length := by
  rw [List.length_take]
  omega

/-- One row more than the page is read, and not given. -/
theorem take_one_more {α : Type} (rows : List α) (limit : ℕ) :
    (if limit < rows.length then (rows.take (limit + 1)).take limit else rows.take (limit + 1)) =
      rows.take limit := by
  by_cases hmore : limit < rows.length
  · rw [if_pos hmore, List.take_take, Nat.min_eq_left (Nat.le_succ limit)]
  · rw [if_neg hmore, List.take_of_length_le (by omega), List.take_of_length_le (by omega)]

theorem statement_eq (hgte : midnight calendar filter.fromDate = some gte)
    (hlte : midnight calendar filter.toDate = some lte) {day : Option (Int × String)}
    (hday : Prisma.cursorDay calendar filter.cursor = some day) :
    Prisma.statement collation table filter =
      some (((Prisma.ordered collation filter gte lte day table).take filter.limit).map fun row =>
          toTransaction calendar row.1,
        if filter.limit < (Prisma.ordered collation filter gte lte day table).length then
          ((Prisma.ordered collation filter gte lte day table).take filter.limit).getLast?.map
            Prisma.positionOf
        else none) := by
  simp only [Prisma.statement, hgte, hlte, hday, Option.bind_eq_bind, Option.bind_some, decide_eq_true_eq,
    lt_length_take, take_one_more]

theorem prisma_page (hgte : midnight calendar filter.fromDate = some gte)
    (hlte : midnight calendar filter.toDate = some lte) (hd : (table.map (·.1.id)).Nodup) (limit : ℕ) :
    ∃ sorted page, Prisma.statement collation table
        { filter with limit := limit, cursor := cursor.map Prisma.positionOf } = some page ∧
      IsPage (Prisma.rowKey collation) (fun row => toTransaction calendar row.1) Prisma.positionOf limit
        (table.filter (Prisma.inWindow filter gte lte)) cursor sorted page := by
  have hstatement := @statement_eq calendar collation
    { filter with limit := limit, cursor := cursor.map Prisma.positionOf } table gte lte hgte hlte _
    cursorDay_positionOf
  refine ⟨_, _, hstatement, ?_, fun row => ?_, rfl, rfl⟩
  · refine descending_of_sorted ((List.Nodup.of_map _ hd).filter _) fun a ha b hb h => ?_
    exact List.inj_on_of_nodup_map hd (List.mem_filter.mp ha).1 (List.mem_filter.mp hb).1 (rowKey_id h)
  · rw [Prisma.ordered, List.mem_insertionSort, List.mem_filter, List.mem_filter, Bool.and_eq_true,
      beforeCursor_iff, and_assoc]
    rfl

theorem exactPrisma : ExactPrisma calendar collation filter all := by
  intro gte lte hgte hlte tables hg limit hlimit
  have hsub : ∀ n, (tables n).filter (Prisma.inWindow filter gte lte) ⊆ tables n := fun n =>
    List.filter_sublist.subset
  refine exact_of_pages Prisma.positionOf hlimit (fun n row hrow => ?_)
    (fun n => List.Subset.trans (hsub n) (hg.within n)) fun n cursor _ => ?_
  · obtain ⟨hrow, hsel⟩ := List.mem_filter.mp hrow
    exact List.mem_filter.mpr ⟨hg.mono (Nat.zero_le n) hrow, hsel⟩
  · exact prisma_page hgte hlte (hg.distinct n) limit

end PrismaPages

/-- Both repositories page a statement exactly when the one in memory sorts the
matching rows as its cursor compares them. -/
theorem statement_exact_iff (localeCompare : String → String → Int) (calendar : Calendar)
    (collation : Collation) (filter : StatementFilter) (all : List TransactionRecord) :
    (ExactMemory localeCompare filter all ∧ ∀ stored, ExactPrisma calendar collation filter stored) ↔
      Agrees localeCompare filter all :=
  ⟨fun h => agrees_of_exactMemory h.1, fun h => ⟨exactMemory_of_agrees h, fun _ => exactPrisma⟩⟩

def settledRow (id : String) : TransactionRecord where
  id := id
  environment := .HOMOLOGACAO
  accountId := "acc_1"
  chargeId := none
  parentTransactionId := none
  type := .PIX_IN
  direction := .CREDIT
  status := .SETTLED
  lastEventAt := none
  amountCents := 1000
  feeCents := 0
  netAmountCents := 1000
  refundedAmountCents := 0
  currency := "BRL"
  description := none
  provider := "mock-bank"
  providerConnectionId := "con_1"
  providerTransactionId := none
  externalId := none
  idempotencyKey := none
  operationId := none
  failureCode := none
  providerFailureCode := none
  failureMessage := none
  effectiveDate := "2026-08-10"
  requestedAt := 1786363200000
  settledAt := some 1786363200000
  failedAt := none
  ledgerPendingTransactionId := none
  ledgerPostedTransactionId := none
  pix := none
  metadata := []
  createdAt := 1786363200000
  updatedAt := 1786363200000

def augustFilter : StatementFilter :=
  ⟨.HOMOLOGACAO, "acc_1", "2026-08-01", "2026-08-31", [.SETTLED], 1, none⟩

/-- Letters before their case, as a locale compares them. -/
def letterCompare (a b : String) : Int :=
  if utf16 a.toLower < utf16 b.toLower then -1 else if utf16 b.toLower < utf16 a.toLower then 1 else 0

theorem lowercase_row_lost :
    follow (fun rows cursor => some (Memory.statement letterCompare rows
        { augustFilter with limit := 1, cursor := cursor }))
      (fun _ => [settledRow "txn_a", settledRow "txn_B"]) 2 = some ([settledRow "txn_B"], .ended) ∧
    ¬ ExactMemory letterCompare augustFilter [settledRow "txn_a", settledRow "txn_B"] :=
  ⟨by decide +kernel, fun h => absurd (agrees_of_exactMemory h) (by decide +kernel)⟩

end BaasConnector.Pix.StatementPages
