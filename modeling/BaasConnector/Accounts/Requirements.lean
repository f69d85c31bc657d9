import BaasConnector.Lib.History
import BaasConnector.Lib.Keyed
import BaasConnector.Accounts.OnboardingCases

namespace BaasConnector.Accounts.Requirements

open BaasConnector.Lib.Keyed BaasConnector.Lib.Mirrored BaasConnector.Lib.History
open BaasConnector.Taxonomy.Status BaasConnector.Connector.Columns
open BaasConnector.Accounts.OnboardingCases

open Prisma (Database RequirementTable)
open InMemory (Memory)

def codes (rs : List RequirementRecord) : List RequirementCode := rs.map (·.code)

def pendingCodes (rs : List RequirementRecord) : List RequirementCode :=
  codes (rs.filter (·.status = .PENDING))

def demanded (demands : List Demand) : List RequirementCode := demands.map (·.code)

/-- What the stored requirements of a case owe to an event that demands a list
of codes. -/
structure Followed (required : List RequirementCode) (before after : List RequirementRecord) : Prop where
  pending : ∀ code, code ∈ pendingCodes after ↔ code ∈ required
  fulfilled : ∀ code ∈ pendingCodes before, code ∉ required → code ∉ pendingCodes after
  distinct : (codes after).Nodup

theorem mem_pendingCodes {code : RequirementCode} {rs : List RequirementRecord} :
    code ∈ pendingCodes rs ↔ ∃ r ∈ rs, r.status = .PENDING ∧ r.code = code := by
  simp [pendingCodes, codes, and_assoc]

theorem pendingCodes_append (rs rs' : List RequirementRecord) :
    pendingCodes (rs ++ rs') = pendingCodes rs ++ pendingCodes rs' := by
  rw [pendingCodes, List.filter_append, codes, List.map_append]
  rfl

section Table

variable {caseId : String} {newId : Nat → RequirementId} {t t' : RequirementTable}

theorem insert_some {r : RequirementRecord} (h : t.insert r = some t') : t'.rows = t.rows ++ [r] := by
  rw [RequirementTable.insert] at h
  split at h
  · cases h
  · rw [← Option.some.inj h]

theorem insert_cases (t : RequirementTable) (r : RequirementRecord) :
    (r.key ∈ t.rows.map RequirementRecord.key ∧ t.insert r = none) ∨
      (r.key ∉ t.rows.map RequirementRecord.key ∧ ∃ t', t.insert r = some t') := by
  rw [RequirementTable.insert]
  by_cases h : r.key ∈ t.rows.map RequirementRecord.key
  · exact .inl ⟨h, dif_pos h⟩
  · exact .inr ⟨h, _, dif_neg h⟩

/-- No minted id is made of a case and a code. -/
theorem id_ne_composed (id : RequirementId) (caseId code : String) : id.text ≠ caseId ++ ":" ++ code := by
  intro h
  apply id.plain
  rw [h, String.toList_append, String.toList_append]
  simp

theorem upsert_eq (id : RequirementId) (demand : Demand) :
    Prisma.upsert caseId id demand t =
      if overflows 255 demand.label then none
      else t.insert ⟨id, caseId, demand.code, .PENDING, varchar 255 demand.label⟩ := by
  have hnone : t.rows.any (fun r => r.id.text = caseId ++ ":" ++ demand.code.text) = false := by
    rw [List.any_eq_false]
    intro r _
    simpa using id_ne_composed r.id caseId demand.code.text
  rw [Prisma.upsert, hnone]
  rfl

/-- The rows that the demands create, one each. -/
def created (caseId : String) (newId : Nat → RequirementId) : Nat → List Demand → List RequirementRecord
  | _, [] => []
  | k, demand :: demands =>
    ⟨newId k, caseId, demand.code, .PENDING, varchar 255 demand.label⟩ ::
      created caseId newId (k + 1) demands

theorem upsertAll_rows {k : Nat} {demands : List Demand}
    (h : Prisma.upsertAll caseId newId k demands t = some t') :
    t'.rows = t.rows ++ created caseId newId k demands := by
  induction demands generalizing k t with
  | nil =>
    rw [← Option.some.inj h]
    simp [created]
  | cons demand demands ih =>
    obtain ⟨t₁, hone, hrest⟩ := Option.bind_eq_some_iff.mp h
    rw [upsert_eq] at hone
    split at hone
    · cases hone
    · rw [ih hrest, insert_some hone, created]
      simp

theorem upsertAll_isSome {k : Nat} {demands : List Demand} :
    (Prisma.upsertAll caseId newId k demands t).isSome ↔
      (∀ demand ∈ demands, overflows 255 demand.label = false) ∧ (demanded demands).Nodup ∧
        ∀ code ∈ demanded demands, (caseId, code) ∉ t.rows.map RequirementRecord.key := by
  induction demands generalizing k t with
  | nil => simp [Prisma.upsertAll, demanded]
  | cons demand demands ih =>
    rw [Prisma.upsertAll, upsert_eq]
    by_cases hlabel : overflows 255 demand.label = true
    · simp [hlabel]
    · rw [if_neg hlabel]
      obtain ⟨hkey, hnone⟩ | ⟨hkey, t₁, hone⟩ := insert_cases t
        ⟨newId k, caseId, demand.code, .PENDING, varchar 255 demand.label⟩
      · rw [hnone, Option.bind_none]
        constructor
        · intro h
          cases h
        · intro h
          exact absurd hkey (h.2.2 demand.code List.mem_cons_self)
      · have hkeys : ∀ code, (caseId, code) ∉ t₁.rows.map RequirementRecord.key ↔
            (caseId, code) ∉ t.rows.map RequirementRecord.key ∧ code ≠ demand.code := by
          intro code
          rw [insert_some hone, List.map_append, List.mem_append, not_or]
          simp [RequirementRecord.key]
        have hcons : demanded (demand :: demands) = demand.code :: demanded demands := rfl
        rw [hone, Option.bind_some, ih, hcons, List.nodup_cons]
        constructor
        · rintro ⟨hlabels, hnodup, hnew⟩
          refine ⟨List.forall_mem_cons.mpr ⟨by simpa using hlabel, hlabels⟩, ⟨?_, hnodup⟩,
            List.forall_mem_cons.mpr ⟨hkey, fun code hc => ((hkeys code).mp (hnew code hc)).1⟩⟩
          exact fun hm => ((hkeys demand.code).mp (hnew demand.code hm)).2 rfl
        · rintro ⟨hlabels, ⟨hfresh, hnodup⟩, hnew⟩
          refine ⟨(List.forall_mem_cons.mp hlabels).2, hnodup, fun code hc => (hkeys code).mpr ⟨?_, ?_⟩⟩
          · exact hnew code (List.mem_cons_of_mem _ hc)
          · rintro rfl
            exact hfresh hc

theorem mem_created {k : Nat} {demands : List Demand} {r : RequirementRecord}
    (h : r ∈ created caseId newId k demands) :
    r.caseId = caseId ∧ r.status = .PENDING ∧ r.code ∈ demanded demands := by
  induction demands generalizing k with
  | nil => cases h
  | cons demand demands ih =>
    obtain rfl | h := List.mem_cons.mp h
    · exact ⟨rfl, rfl, List.mem_cons_self⟩
    · obtain ⟨hcase, hstatus, hcode⟩ := ih h
      exact ⟨hcase, hstatus, List.mem_cons_of_mem _ hcode⟩

theorem exists_created {k : Nat} {demands : List Demand} {code : RequirementCode}
    (h : code ∈ demanded demands) : ∃ r ∈ created caseId newId k demands, r.code = code := by
  induction demands generalizing k with
  | nil => cases h
  | cons demand demands ih =>
    obtain rfl | h := List.mem_cons.mp h
    · exact ⟨_, List.mem_cons_self, rfl⟩
    · obtain ⟨r, hr, hcode⟩ := ih h
      exact ⟨r, List.mem_cons_of_mem _ hr, hcode⟩

/-- The unique index, seen from one case. -/
theorem codes_nodup (t : RequirementTable) (caseId : String) :
    (codes (t.rows.filter (·.caseId = caseId))).Nodup := by
  have hkeys : (codes (t.rows.filter (·.caseId = caseId))).map (fun code => (caseId, code)) =
      (t.rows.filter (·.caseId = caseId)).map RequirementRecord.key := by
    rw [codes, List.map_map]
    refine List.map_congr_left fun r hr => ?_
    rw [Function.comp_apply, RequirementRecord.key, of_decide_eq_true (List.mem_filter.mp hr).2]
  have hsub : ((t.rows.filter (·.caseId = caseId)).map RequirementRecord.key).Nodup :=
    t.unique.sublist (List.filter_sublist.map RequirementRecord.key)
  rw [← hkeys] at hsub
  exact hsub.of_map _

theorem mem_keys_iff {code : RequirementCode} :
    (caseId, code) ∈ t.rows.map RequirementRecord.key ↔
      code ∈ codes (t.rows.filter (·.caseId = caseId)) := by
  simp [codes, RequirementRecord.key, and_assoc]

theorem sync_isSome {demands : List Demand} :
    (Prisma.syncRequirements caseId newId demands t).isSome ↔
      (demanded demands).Nodup ∧
        (∀ code ∈ demanded demands, code ∉ codes (t.rows.filter (·.caseId = caseId))) ∧
        ∀ demand ∈ demands, overflows 255 demand.label = false := by
  rw [Prisma.syncRequirements, upsertAll_isSome, RequirementTable.updateMany, Prisma.keys_of_update]
  simp only [mem_keys_iff]
  tauto

theorem sync_followed {demands : List Demand}
    (h : Prisma.syncRequirements caseId newId demands t = some t') :
    Followed (demanded demands) (t.rows.filter (·.caseId = caseId))
      (t'.rows.filter (·.caseId = caseId)) := by
  have hrows := upsertAll_rows h
  have hpending : ∀ code, code ∈ pendingCodes (t'.rows.filter (·.caseId = caseId)) ↔
      code ∈ demanded demands := by
    intro code
    rw [mem_pendingCodes]
    constructor
    · rintro ⟨r, hr, hstatus, rfl⟩
      rw [List.mem_filter, hrows, List.mem_append] at hr
      obtain ⟨hold | hnew, hcase⟩ := hr
      · obtain ⟨r₀, _, rfl⟩ := List.mem_map.mp hold
        by_contra hcode
        split at hstatus
        · cases hstatus
        · next hp =>
          rw [if_neg hp] at hcase hcode
          exact hp (by simp [of_decide_eq_true hcase, hstatus, demanded] at hcode ⊢; exact hcode)
      · exact (mem_created hnew).2.2
    · intro hcode
      obtain ⟨r, hr, rfl⟩ := @exists_created caseId newId 0 demands _ hcode
      obtain ⟨hcase, hstatus, _⟩ := mem_created hr
      refine ⟨r, ?_, hstatus, rfl⟩
      rw [List.mem_filter, hrows, List.mem_append]
      exact ⟨.inr hr, decide_eq_true hcase⟩
  exact ⟨hpending, fun code _ hcode hafter => hcode ((hpending code).mp hafter), codes_nodup t' caseId⟩

end Table

section List

variable {caseId : String} {newId : Nat → RequirementId} {rows : List RequirementRecord}

theorem pushAll_pending {k : Nat} {demands : List Demand} {code : RequirementCode} :
    code ∈ pendingCodes (InMemory.pushAll caseId newId k demands rows) ↔
      code ∈ pendingCodes rows ∨ (code ∈ demanded demands ∧ code ∉ codes rows) := by
  induction demands generalizing k rows with
  | nil => simp [InMemory.pushAll, demanded]
  | cons demand demands ih =>
    have hcons : code ∈ demanded (demand :: demands) ↔ code = demand.code ∨ code ∈ demanded demands :=
      List.mem_cons
    rw [InMemory.pushAll, ih, hcons]
    by_cases hany : rows.any (·.code = demand.code) = true
    · have hstored : demand.code ∈ codes rows := by simpa [codes] using hany
      rw [if_pos hany]
      grind
    · have hstored : demand.code ∉ codes rows := by simpa [codes] using hany
      rw [if_neg hany, pendingCodes_append, List.mem_append, codes, List.map_append, List.mem_append]
      simp only [pendingCodes, codes, List.map_cons, List.map_nil, List.mem_singleton] at hstored ⊢
      grind

theorem pushAll_nodup {k : Nat} {demands : List Demand} :
    (codes (InMemory.pushAll caseId newId k demands rows)).Nodup ↔ (codes rows).Nodup := by
  induction demands generalizing k rows with
  | nil => rfl
  | cons demand demands ih =>
    rw [InMemory.pushAll, ih]
    by_cases hany : rows.any (·.code = demand.code) = true
    · rw [if_pos hany]
    · have hstored : demand.code ∉ codes rows := by simpa [codes] using hany
      rw [if_neg hany, codes, List.map_append]
      refine ⟨fun h => (List.nodup_append.mp h).1, fun h => ?_⟩
      exact h.append (List.nodup_singleton _) (by simpa using hstored)

theorem accept_codes (pending : List RequirementCode) :
    codes (rows.map (InMemory.accept pending)) = codes rows := by
  rw [codes, List.map_map]
  refine List.map_congr_left fun r _ => ?_
  rw [Function.comp_apply, InMemory.accept]
  split
  · rfl
  · rfl

theorem accept_pending {pending : List RequirementCode} {code : RequirementCode} :
    code ∈ pendingCodes (rows.map (InMemory.accept pending)) ↔
      code ∈ pendingCodes rows ∧ code ∈ pending := by
  simp only [mem_pendingCodes, List.mem_map, InMemory.accept]
  grind

theorem sync_pending {demands : List Demand} {code : RequirementCode} :
    code ∈ pendingCodes (InMemory.syncRequirements caseId newId demands rows) ↔
      code ∈ demanded demands ∧ (code ∈ codes rows → code ∈ pendingCodes rows) := by
  have hstored : code ∈ pendingCodes rows → code ∈ codes rows := by
    intro h
    obtain ⟨r, hr, _, rfl⟩ := mem_pendingCodes.mp h
    exact List.mem_map_of_mem hr
  rw [InMemory.syncRequirements, pushAll_pending, accept_pending, accept_codes]
  change (_ ∧ code ∈ demanded demands) ∨ _ ↔ _
  grind

theorem sync_followed_iff {demands : List Demand} :
    Followed (demanded demands) rows (InMemory.syncRequirements caseId newId demands rows) ↔
      (codes rows).Nodup ∧ ∀ code ∈ demanded demands, code ∈ codes rows → code ∈ pendingCodes rows := by
  constructor
  · intro h
    have hnodup := h.distinct
    rw [InMemory.syncRequirements, pushAll_nodup, accept_codes] at hnodup
    exact ⟨hnodup, fun code hcode => (sync_pending.mp ((h.pending code).mpr hcode)).2⟩
  · rintro ⟨hnodup, hstored⟩
    refine ⟨fun code => ?_, fun code _ hcode hafter => hcode (sync_pending.mp hafter).1, ?_⟩
    · rw [sync_pending]
      exact ⟨fun h => h.1, fun h => ⟨h, hstored code h⟩⟩
    · rwa [InMemory.syncRequirements, pushAll_nodup, accept_codes]

end List

section Events

/-- The database applies an event that its guard accepts and the requirements
follow it. -/
def DatabaseFollows (d : Database) (c : StatusChange) : Prop :=
  ∀ row demands, d.cases.get c.caseId = some row → row.environment = c.environment →
    c.guarded row = none → c.requirements = some demands →
      (∃ record, (d.applyStatusChange c).1 = .change (.applied record)) ∧
        Followed (demanded demands) (d.requirementsOf c.caseId)
          ((d.applyStatusChange c).2.requirementsOf c.caseId)

/-- No demanded code is named twice or stored already, and nothing else makes
the transaction throw. -/
def DatabaseServes (d : Database) (c : StatusChange) : Prop :=
  ∀ row demands, d.cases.get c.caseId = some row → row.environment = c.environment →
    c.guarded row = none → c.requirements = some demands →
      ((demanded demands).Nodup ∧
        (∀ code ∈ demanded demands, code ∉ codes (d.requirementsOf c.caseId)) ∧
        ∀ demand ∈ demands, overflows 255 demand.label = false) ∧
      Prisma.refused c = false ∧ c.withinTransactionThrows = false

def MemoryFollows (m : Memory) (c : StatusChange) : Prop :=
  ∀ row demands, m.rows.get c.caseId = some row → row.environment = c.environment →
    c.guarded row.toOnboardingCase = none → c.requirements = some demands →
      (∃ record, (m.applyStatusChange c).1 = .change (.applied record)) ∧
        Followed (demanded demands) (m.requirementsOf c.caseId)
          ((m.applyStatusChange c).2.requirementsOf c.caseId)

/-- No code is stored twice, and a demanded code that is stored is stored as
pending. -/
def MemoryServes (m : Memory) (c : StatusChange) : Prop :=
  ∀ row demands, m.rows.get c.caseId = some row → row.environment = c.environment →
    c.guarded row.toOnboardingCase = none → c.requirements = some demands →
      ((codes row.requirements).Nodup ∧
        ∀ code ∈ demanded demands, code ∈ codes row.requirements →
          code ∈ pendingCodes row.requirements) ∧
      c.withinTransactionThrows = false

theorem database_apply {d : Database} {c : StatusChange} {row : OnboardingCase} {demands : List Demand}
    (hrow : d.cases.get c.caseId = some row) (henv : row.environment = c.environment)
    (hguard : c.guarded row = none) (hreq : c.requirements = some demands) :
    ((∃ record, (d.applyStatusChange c).1 = .change (.applied record)) ↔
      (Prisma.syncRequirements c.caseId c.newId demands d.requirements).isSome ∧
        Prisma.refused c = false ∧ c.withinTransactionThrows = false) ∧
    ∀ t, Prisma.syncRequirements c.caseId c.newId demands d.requirements = some t →
      Prisma.refused c = false → c.withinTransactionThrows = false →
        (d.applyStatusChange c).2.requirementsOf c.caseId = t.rows.filter (·.caseId = c.caseId) := by
  have hsynced : Prisma.synced c d.requirements =
      Prisma.syncRequirements c.caseId c.newId demands d.requirements := by
    rw [Prisma.synced, hreq]
    rfl
  rw [Database.applyStatusChange, search_key d.cases c.caseId, hrow]
  simp only [Option.filter, henv, decide_true, if_true, hguard, hsynced]
  cases Prisma.refused c with
  | true => simp
  | false =>
    cases Prisma.syncRequirements c.caseId c.newId demands d.requirements with
    | none => simp
    | some t =>
      cases c.withinTransactionThrows with
      | true => simp
      | false => simp [Database.requirementsOf]

theorem databaseFollows_iff (d : Database) (c : StatusChange) :
    DatabaseFollows d c ↔ DatabaseServes d c := by
  constructor
  · intro h row demands hrow henv hguard hreq
    obtain ⟨hsome, hrest⟩ :=
      (database_apply hrow henv hguard hreq).1.mp (h row demands hrow henv hguard hreq).1
    exact ⟨sync_isSome.mp hsome, hrest⟩
  · intro h row demands hrow henv hguard hreq
    obtain ⟨hsync, hrefused, hthrows⟩ := h row demands hrow henv hguard hreq
    obtain ⟨happly, hstored⟩ := database_apply hrow henv hguard hreq
    have hsome := (@sync_isSome c.caseId c.newId d.requirements demands).mpr hsync
    obtain ⟨t, ht⟩ := Option.isSome_iff_exists.mp hsome
    rw [hstored t ht hrefused hthrows]
    exact ⟨happly.mpr ⟨hsome, hrefused, hthrows⟩, sync_followed ht⟩

theorem memory_apply {m : Memory} {c : StatusChange} {row : OnboardingRecord} {demands : List Demand}
    (hrow : m.rows.get c.caseId = some row) (henv : row.environment = c.environment)
    (hguard : c.guarded row.toOnboardingCase = none) (hreq : c.requirements = some demands) :
    ((∃ record, (m.applyStatusChange c).1 = .change (.applied record)) ↔
      c.withinTransactionThrows = false) ∧
    m.requirementsOf c.caseId = row.requirements ∧
    (m.applyStatusChange c).2.requirementsOf c.caseId =
      InMemory.syncRequirements row.id c.newId demands row.requirements := by
  have hid : row.id = c.caseId := @Rows.key_of_get _ _ _ _ m.rows _ _ hrow
  have hget : (m.rows.put (InMemory.written c row)).get c.caseId = some (InMemory.written c row) := by
    rw [← hid]
    exact Rows.get_put_self m.rows (InMemory.written c row)
  rw [Memory.applyStatusChange, Memory.requirementsOf, hrow]
  simp only [Option.filter, henv, decide_true, if_true, hguard, Memory.requirementsOf, hget]
  refine ⟨?_, rfl, by simp [InMemory.written, hreq]⟩
  cases c.withinTransactionThrows with
  | true => simp
  | false => simp

theorem memoryFollows_iff (m : Memory) (c : StatusChange) : MemoryFollows m c ↔ MemoryServes m c := by
  constructor
  · intro h row demands hrow henv hguard hreq
    obtain ⟨hreply, hbefore, hafter⟩ := memory_apply hrow henv hguard hreq
    obtain ⟨happlied, hfollowed⟩ := h row demands hrow henv hguard hreq
    rw [hbefore, hafter] at hfollowed
    exact ⟨sync_followed_iff.mp hfollowed, hreply.mp happlied⟩
  · intro h row demands hrow henv hguard hreq
    obtain ⟨hreply, hbefore, hafter⟩ := memory_apply hrow henv hguard hreq
    obtain ⟨hsync, hthrows⟩ := h row demands hrow henv hguard hreq
    rw [hbefore, hafter]
    exact ⟨hreply.mpr hthrows, sync_followed_iff.mpr hsync⟩

end Events

def Database.after (d : Database) (events : List StatusChange) : Database :=
  events.foldl (fun d c => (d.applyStatusChange c).2) d

def Memory.after (m : Memory) (events : List StatusChange) : Memory :=
  events.foldl (fun m c => (m.applyStatusChange c).2) m

/-- Over every history, the requirements follow the provider at every event
exactly when every event finds the condition of its repository met. -/
theorem requirements_follow_iff (d : Database) (m : Memory) (events : List StatusChange) :
    (Always (fun before c => DatabaseFollows (Database.after d before) c) events ↔
      Always (fun before c => DatabaseServes (Database.after d before) c) events) ∧
    (Always (fun before c => MemoryFollows (Memory.after m before) c) events ↔
      Always (fun before c => MemoryServes (Memory.after m before) c) events) := by
  constructor
  · simp only [databaseFollows_iff]
  · simp only [memoryFollows_iff]

def sampleCase : OnboardingCase := ⟨"onb_1", .HOMOLOGACAO, .SUBMITTED, none, none, none, none, none⟩

def sampleRequirement : RequirementRecord :=
  ⟨⟨"req_1", by decide⟩, "onb_1", .SELFIE_LIVENESS, .PENDING, "Selfie com prova de vida"⟩

def sampleEvent (toStatus : OnboardingStatus) (requirements : List Demand) (occurredAt : Int) :
    StatusChange :=
  ⟨.HOMOLOGACAO, "onb_1", toStatus, none, none, none, some requirements, occurredAt, false,
    fun _ => ⟨"req_2", by decide⟩⟩

def sampleDatabase : Database :=
  ⟨Rows.empty.put sampleCase, ⟨[sampleRequirement], by decide⟩⟩

def sampleMemory : Memory := ⟨Rows.empty.put ⟨sampleCase, [sampleRequirement]⟩⟩

def selfie : Demand := ⟨.SELFIE_LIVENESS, "SELFIE_LIVENESS"⟩

def throws : Reply → Bool
  | .thrown => true
  | .change _ => false

/-- The database throws when a pending requirement is demanded again; the memory
leaves an accepted one accepted. -/
theorem demanded_again :
    (¬ ∀ events, Always (fun before c => DatabaseFollows (Database.after sampleDatabase before) c)
      events) ∧
    ¬ ∀ events, Always (fun before c => MemoryFollows (Memory.after sampleMemory before) c) events := by
  constructor
  · intro h
    have hevent := h [sampleEvent .PENDING_REQUIREMENTS [selfie] 2000] [] _ [] rfl sampleCase [selfie]
      rfl rfl (by decide) rfl
    obtain ⟨record, happlied⟩ := hevent.1
    have hthrows := congrArg throws happlied
    change _ = false at hthrows
    revert hthrows
    decide
  · intro h
    have hevent := h [sampleEvent .PENDING_REQUIREMENTS [] 2000, sampleEvent .MANUAL_REVIEW [selfie] 3000]
      [sampleEvent .PENDING_REQUIREMENTS [] 2000] _ [] rfl _ [selfie] rfl rfl (by decide) rfl
    have hpending := (hevent.2.pending .SELFIE_LIVENESS).mpr (by decide)
    revert hpending
    decide

end BaasConnector.Accounts.Requirements
