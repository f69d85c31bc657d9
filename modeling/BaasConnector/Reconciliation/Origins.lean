import BaasConnector.Reconciliation.Motor

namespace BaasConnector.Reconciliation.Origins

open BaasConnector.Lib.Keyed BaasConnector.Taxonomy.Status BaasConnector.Connector.Records
open BaasConnector.Reconciliation.Items BaasConnector.Reconciliation.Passes
open BaasConnector.Reconciliation.Motor

variable (runtime : Runtime) (input : ReconciliationInput)

/-- An item of the input, as the motor indexes it. -/
def Indexed (items : List NormalizedItem) (item : NormalizedItem) : Prop :=
  (indexar items).get item.id = some item

/-- The breaks that the first three passes open before the last local items. -/
inductive Early : BreakDraft → Prop
  | amount {p c : NormalizedItem} (hp : Indexed input.provider p) (hc : Indexed input.localItems c)
      (hne : p.amountCents ≠ c.amountCents) : Early (amountBreak input.policy p c)
  | plain {b : BreakDraft} (hdelta : b.deltaCents = none) (hlocal : b.type ≠ .MISSING_ON_LOCAL)
      (hprovider : b.type ≠ .MISSING_ON_PROVIDER) (hledger : b.type ≠ .MISSING_ON_LEDGER) : Early b
  | missingLocal {p : NormalizedItem} (hp : Indexed input.provider p) (ambiguo : Bool) :
      Early (missingLocalBreak p ambiguo)

/-- Where a break of the motor comes from, with the items it is about. -/
inductive Origin (links : List MatchLink) : BreakDraft → Prop
  | early {b : BreakDraft} (h : Early input b) : Origin links b
  | missingProvider {c : NormalizedItem} (hc : Indexed input.localItems c)
      (hfree : ∀ m ∈ links, m.localItemId ≠ some c.id) : Origin links (missingProviderBreak input.now c)
  | missingLedger (c : NormalizedItem) : Origin links (missingLedgerBreak c)
  | ledgerAmount {c l : NormalizedItem} (hc : Indexed input.localItems c)
      (hl : Indexed input.ledger l) (hne : l.amountCents ≠ c.amountCents) :
      Origin links (ledgerAmountBreak c l)
  | orphan {l : NormalizedItem} (hl : Indexed input.ledger l) : Origin links (orphanBreak l)
  | balance {abertura movimento fechamento : Int} (hne : fechamento - (abertura + movimento) ≠ 0) :
      Origin links (balanceBreak runtime input abertura movimento fechamento)

section Groups

variable {key : NormalizedItem → Option String} {items : List NormalizedItem}

theorem groupBy_mem {k : String} {group : List NormalizedItem} {v : NormalizedItem}
    (h : (groupBy key items).get k = some group) (hv : v ∈ group) : v ∈ items := by
  unfold groupBy at h
  revert h hv
  refine List.foldlRecOn (motive := fun groups : Table String (List NormalizedItem) =>
    ∀ {k group}, groups.get k = some group → v ∈ group → v ∈ items) items _ ?_ ?_
  · intro k group h
    simp at h
  · intro groups ih item hitem k group h hv
    cases hk : key item with
    | none => exact ih (by simpa [hk] using h) hv
    | some k' =>
      simp only [hk] at h
      rw [Table.get_set] at h
      by_cases he : k = k'
      · rw [if_pos he, Option.some.injEq] at h
        rw [← h, List.mem_append, List.mem_singleton] at hv
        obtain hv | rfl := hv
        · cases hg : groups.get k' with
          | none => simp [hg] at hv
          | some group' => exact ih hg (by simpa [hg] using hv)
        · exact hitem
      · rw [if_neg he] at h
        exact ih h hv

end Groups

theorem indexed_of_mem {items : List NormalizedItem} {pool : Pool} {item : NormalizedItem}
    (hpool : ∀ k v, pool.get k = some v → (indexar items).get k = some v) (h : item ∈ pool.values) :
    Indexed items item := by
  obtain ⟨k, hk⟩ := Table.mem_values.mp h
  have hget := hpool k item hk
  have hid := (indexar_get hget).2
  rw [Indexed, hid]
  exact hget

theorem oldest_mem {items : List NormalizedItem} {item : NormalizedItem}
    (h : escolherMaisAntigo runtime items = some item) : item ∈ items :=
  (List.perm_insertionSort (byInstant runtime) items).mem_iff.mp (List.mem_of_mem_head? h)

/-- The pools only shrink, a matched local item is out of its pool, and every
break has one of the early origins. -/
structure Traced (s : PassState) : Prop where
  provider : ∀ k v, s.provider.get k = some v → (indexar input.provider).get k = some v
  localPool : ∀ k v, s.localPool.get k = some v → (indexar input.localItems).get k = some v
  apart : ∀ m ∈ s.matched, ∀ c, m.localItemId = some c → s.localPool.get c = none
  breaks : ∀ b ∈ s.breaks, Early input b

section Steps

variable {input} {s : PassState}

theorem get_delete_some {pool : Pool} {k id : String} {v : NormalizedItem}
    (h : (pool.delete id).get k = some v) : pool.get k = some v := by
  rw [Table.get_delete] at h
  by_cases hk : k = id
  · simp [hk] at h
  · rwa [if_neg hk] at h

theorem get_delete_none {pool : Pool} {k : String} (id : String) (h : pool.get k = none) :
    (pool.delete id).get k = none := by
  rw [Table.get_delete, h, ite_self]

theorem Traced.addBreak (h : Traced input s) {b : BreakDraft} (hb : Early input b) :
    Traced input (s.addBreak b) where
  provider := h.provider
  localPool := h.localPool
  apart := h.apart
  breaks b' hb' := by
    obtain hb' | hb' := List.mem_append.mp hb'
    · exact h.breaks b' hb'
    · rw [List.mem_singleton.mp hb']
      exact hb

theorem Traced.pair (h : Traced input s) (p c : NormalizedItem) (confidence : MatchConfidence)
    (pass : Nat) (needsReview : Bool) : Traced input (s.pair p c confidence pass needsReview) where
  provider k v hk := h.provider k v (get_delete_some hk)
  localPool k v hk := h.localPool k v (get_delete_some hk)
  apart m hm id hid := by
    obtain hm | hm := List.mem_append.mp hm
    · exact get_delete_none c.id (h.apart m hm id hid)
    · rw [List.mem_singleton.mp hm, Option.some.injEq] at hid
      change (s.localPool.delete c.id).get id = none
      rw [Table.get_delete, if_pos hid.symm]
  breaks := h.breaks

theorem Traced.drop (h : Traced input s) (lado : ReconciliationSide) (id : String) :
    Traced input (s.drop lado id) := by
  unfold PassState.drop
  split
  · exact ⟨h.provider, fun k v hk => h.localPool k v (get_delete_some hk),
      fun m hm c hc => get_delete_none id (h.apart m hm c hc), h.breaks⟩
  · exact ⟨fun k v hk => h.provider k v (get_delete_some hk), h.localPool, h.apart, h.breaks⟩

theorem early_duplicate {tipo : BreakType} (lado : ReconciliationSide) (d : NormalizedItem × BreakNote)
    (h : tipo = .DUPLICATE_LOCAL ∨ tipo = .DUPLICATE_PROVIDER) :
    Early input (duplicateBreak tipo lado d) := by
  obtain rfl | rfl := h <;>
    exact .plain rfl (by simp [duplicateBreak]) (by simp [duplicateBreak]) (by simp [duplicateBreak])

theorem Traced.reportDuplicates (h : Traced input s) {tipo : BreakType} (lado : ReconciliationSide)
    (duplicados : List (NormalizedItem × BreakNote))
    (ht : tipo = .DUPLICATE_LOCAL ∨ tipo = .DUPLICATE_PROVIDER) :
    Traced input (reportDuplicates s tipo lado duplicados) :=
  List.foldlRecOn duplicados _ h fun _ h d _ =>
    (h.drop lado d.1.id).addBreak (early_duplicate lado d ht)

theorem Traced.duplicatesOf (h : Traced input s) {tipo : BreakType} (lado : ReconciliationSide)
    (lista : List NormalizedItem) (chave : String)
    (ht : tipo = .DUPLICATE_LOCAL ∨ tipo = .DUPLICATE_PROVIDER) :
    Traced input (duplicatesOf runtime s tipo lado lista chave) := by
  unfold Passes.duplicatesOf
  split
  · split
    · exact h
    · exact h.reportDuplicates lado _ ht
  · exact h

theorem Traced.compareAttributes (h : Traced input s) {p c : NormalizedItem}
    (hp : Indexed input.provider p) (hc : Indexed input.localItems c) :
    Traced input (compareAttributes input.policy s p c) := by
  have hamounts : Traced input (compareAmounts input.policy s p c) := by
    unfold compareAmounts
    split
    · next hne => exact h.addBreak (.amount hp hc hne)
    · exact h
  have hstatuses : Traced input (compareStatuses (compareAmounts input.policy s p c) p c) := by
    unfold compareStatuses
    split
    · split
      · exact hamounts.addBreak
          (.plain rfl (by simp [statusBreak]) (by simp [statusBreak]) (by simp [statusBreak]))
      · exact hamounts
    · exact hamounts
  unfold Passes.compareAttributes compareDates
  split
  · exact hstatuses.addBreak (.plain rfl (fun h => by cases h) (fun h => by cases h) fun h => by cases h)
  · exact hstatuses

theorem Traced.strongKeyStep (h : Traced input s) {locais : Table String (List NormalizedItem)}
    {entry : String × List NormalizedItem} (hentry : ∀ v ∈ entry.2, Indexed input.provider v)
    (hlocais : ∀ k group, locais.get k = some group → ∀ v ∈ group, Indexed input.localItems v) :
    Traced input (strongKeyStep runtime input.policy locais s entry) := by
  unfold Passes.strongKeyStep
  cases hl : locais.get entry.1 with
  | none => exact h
  | some doLocal =>
    dsimp only
    split
    · exact h
    · have hd : Traced input (duplicates runtime s entry.2 doLocal entry.1) :=
        (h.duplicatesOf runtime .LOCAL doLocal _ (.inl rfl)).duplicatesOf runtime .PROVIDER entry.2 _ (.inr rfl)
      split
      · next p c hp hc =>
        exact (hd.pair p c .EXACT 1 false).compareAttributes (hentry p (oldest_mem runtime hp))
          (hlocais _ _ hl c (oldest_mem runtime hc))
      · exact hd

theorem Traced.strongPrefix (h : Traced input s) (prefixo : String) :
    Traced input (strongPrefix runtime input.policy s prefixo) := by
  unfold Passes.strongPrefix
  refine List.foldlRecOn _ _ h fun s' h' entry hentry => h'.strongKeyStep runtime (fun v hv => ?_)
    fun k group hg v hv => ?_
  · have hget : (indexBy s.provider prefixo).get entry.1 = some entry.2 :=
      (lookup_eq_some (indexBy s.provider prefixo).nodup).mpr hentry
    exact indexed_of_mem h.provider (groupBy_mem hget hv)
  · exact indexed_of_mem h.localPool (groupBy_mem hg hv)

theorem Traced.passStrong (h : Traced input s) : Traced input (passStrong runtime input.policy s) :=
  List.foldlRecOn _ _ h fun _ h prefixo _ => h.strongPrefix runtime prefixo

theorem Traced.fuzzyBucketStep (h : Traced input s)
    (baldesP baldesC : Table String (List NormalizedItem)) (chave : String) :
    Traced input (fuzzyBucketStep runtime input.policy baldesP baldesC s chave) := by
  unfold Passes.fuzzyBucketStep
  dsimp only
  split
  · exact h
  · split
    · exact h
    · refine Traced.reportDuplicates (Traced.reportDuplicates ?_ .LOCAL _ (.inl rfl)) .PROVIDER _ (.inr rfl)
      exact List.foldlRecOn _ _ h fun _ h par _ => h.pair par.1 par.2 .HIGH 2 _

theorem Traced.passDeterministicFuzzy (h : Traced input s) :
    Traced input (passDeterministicFuzzy runtime input.policy s) :=
  List.foldlRecOn _ _ h fun _ h chave _ => h.fuzzyBucketStep runtime _ _ chave

theorem Traced.windowedStep (h : Traced input s) {p : NormalizedItem} (hp : Indexed input.provider p) :
    Traced input (windowedStep runtime input.policy s p) := by
  have hmissing : ∀ ambiguo, Traced input (faltaNoLocal s p ambiguo) := fun ambiguo =>
    (h.drop .PROVIDER p.id).addBreak (.missingLocal hp ambiguo)
  unfold Motor.windowedStep
  split
  · exact h
  · split
    · next c _ => exact h.pair p c .LOW 3 true
    · exact hmissing false
    · exact hmissing true

end Steps

variable {input}

theorem indexed_of_sorted {pool : Pool} {items : List NormalizedItem} {item : NormalizedItem}
    (hpool : ∀ k v, pool.get k = some v → (indexar items).get k = some v)
    (h : item ∈ pool.values.insertionSort (byId runtime)) : Indexed items item :=
  indexed_of_mem hpool ((List.perm_insertionSort (byId runtime) pool.values).mem_iff.mp h)

theorem passWindowedFuzzy_origin {s : PassState} (h : Traced input s) :
    ∀ b ∈ (passWindowedFuzzy runtime input.policy input.now s).breaks,
      Origin runtime input (passWindowedFuzzy runtime input.policy input.now s).matched b := by
  unfold passWindowedFuzzy
  have hfirst : Traced input ((s.provider.values.insertionSort (byId runtime)).foldl
      (windowedStep runtime input.policy) s) :=
    List.foldlRecOn _ _ h fun _ h' p hp =>
      h'.windowedStep runtime (indexed_of_sorted runtime h.provider hp)
  revert hfirst
  generalize (s.provider.values.insertionSort (byId runtime)).foldl
    (windowedStep runtime input.policy) s = v
  intro hv
  have hloop : ∀ (items : List NormalizedItem), (∀ c ∈ items, c ∈ v.localPool.values) →
      (items.foldl (faltaNoProvedor input.policy input.now) v).matched = v.matched ∧
      ∀ b ∈ (items.foldl (faltaNoProvedor input.policy input.now) v).breaks,
        Origin runtime input v.matched b := by
    intro items hitems
    refine List.foldlRecOn (motive := fun u : PassState => u.matched = v.matched ∧
      ∀ b ∈ u.breaks, Origin runtime input v.matched b) items _
      ⟨rfl, fun b hb => .early (hv.breaks b hb)⟩ fun u hu c hc => ?_
    unfold faltaNoProvedor
    dsimp only
    split
    · exact hu
    · refine ⟨hu.1, fun b hb => ?_⟩
      obtain hb | hb := List.mem_append.mp hb
      · exact hu.2 b hb
      · rw [List.mem_singleton.mp hb]
        have hindexed := indexed_of_mem hv.localPool (hitems c hc)
        refine .missingProvider hindexed fun m hm hid => ?_
        obtain ⟨k, hk⟩ := Table.mem_values.mp (hitems c hc)
        have hkey := (indexar_get (hv.localPool k c hk)).2
        have hnone := hv.apart m hm c.id hid
        rw [hkey, hk] at hnone
        cases hnone
  obtain ⟨hmatched, hbreaks⟩ := hloop (v.localPool.values.insertionSort (byId runtime)) fun c hc =>
    (List.perm_insertionSort (byId runtime) v.localPool.values).mem_iff.mp hc
  rw [hmatched]
  exact hbreaks

theorem Origin.links {links links' : List MatchLink} {b : BreakDraft} (h : Origin runtime input links b)
    (hl : ∀ m ∈ links', ∃ m' ∈ links, m.localItemId = m'.localItemId) :
    Origin runtime input links' b := by
  cases h with
  | early h => exact .early h
  | missingProvider hc hfree =>
    refine .missingProvider hc fun m hm hid => ?_
    obtain ⟨m', hm', heq⟩ := hl m hm
    exact hfree m' hm' (heq ▸ hid)
  | missingLedger c => exact .missingLedger c
  | ledgerAmount hc hl hne => exact .ledgerAmount hc hl hne
  | orphan hl => exact .orphan hl
  | balance hne => exact .balance hne

/-- What the cross pass keeps while it goes through the links. -/
structure Crossed (links : List MatchLink) (s : LedgerCrossState) : Prop where
  matched : ∀ m ∈ s.matched, ∃ m' ∈ links, m.localItemId = m'.localItemId
  breaks : ∀ b ∈ s.breaks, Origin runtime input links b
  ledger : ∀ k v, s.ledger.get k = some v → (indexar input.ledger).get k = some v

theorem consumir_get {pool : Pool} {k : String} {v : NormalizedItem} (grupo : List NormalizedItem)
    (h : (consumir pool grupo).get k = some v) : pool.get k = some v := by
  revert h
  exact List.foldlRecOn (motive := fun p : Pool => p.get k = some v → pool.get k = some v) grupo _ id
    fun _ ih item _ h => ih (get_delete_some h)

theorem grupoDe_mem {c l : NormalizedItem} {grupo : List NormalizedItem}
    (h : grupoDe runtime (indexarPorTransacao (indexar input.ledger)) c = some grupo) (hl : l ∈ grupo) :
    Indexed input.ledger l := by
  unfold grupoDe at h
  obtain ⟨id, _, h⟩ := Option.bind_eq_some_iff.mp h
  obtain ⟨items, hi, rfl⟩ := Option.map_eq_some_iff.mp h
  exact indexed_of_mem (fun _ _ h => h)
    (groupBy_mem hi ((List.perm_insertionSort (byId runtime) items).mem_iff.mp hl))

theorem Crossed.step {links : List MatchLink} {s : LedgerCrossState}
    (h : @Crossed runtime input links s) {link : MatchLink} (hlink : link ∈ links) :
    @Crossed runtime input links (crossStep runtime input.policy (indexar input.localItems)
      (indexarPorTransacao (indexar input.ledger)) s link) := by
  have hmatched : ∀ (ledgerItemId : Option String), ∀ m ∈ s.matched ++ [{ link with ledgerItemId }],
      ∃ m' ∈ links, m.localItemId = m'.localItemId := by
    intro ledgerItemId m hm
    obtain hm | hm := List.mem_append.mp hm
    · exact h.matched m hm
    · rw [List.mem_singleton.mp hm]
      exact ⟨link, hlink, rfl⟩
  unfold crossStep
  cases hc : (present link.localItemId).bind (indexar input.localItems).get with
  | none => exact ⟨hmatched link.ledgerItemId, h.breaks, h.ledger⟩
  | some c =>
    obtain ⟨id, _, hget⟩ := Option.bind_eq_some_iff.mp hc
    have hindexed : Indexed input.localItems c := by
      rw [Indexed, (indexar_get hget).2]
      exact hget
    have hmissing : ∀ b ∈ s.breaks ++ [missingLedgerBreak c], Origin runtime input links b := by
      intro b hb
      obtain hb | hb := List.mem_append.mp hb
      · exact h.breaks b hb
      · rw [List.mem_singleton.mp hb]
        exact .missingLedger c
    dsimp only
    split
    · next l grupo hg =>
      refine ⟨hmatched (some l.id), fun b hb => ?_, fun k v hk => h.ledger k v (consumir_get _ hk)⟩
      unfold conferirPerna at hb
      obtain hb | hb := List.mem_append.mp hb
      · obtain hb | hb := List.mem_append.mp hb
        · exact h.breaks b hb
        · split at hb
          · next hne =>
            rw [List.mem_singleton.mp hb]
            exact .ledgerAmount hindexed (grupoDe_mem runtime hg (List.mem_cons_self ..)) hne
          · simp at hb
      · split at hb
        · rw [List.mem_singleton.mp hb]
          exact .early (.plain rfl (by simp [ledgerDateBreak]) (by simp [ledgerDateBreak])
            (by simp [ledgerDateBreak]))
        · simp at hb
    · exact ⟨hmatched link.ledgerItemId, hmissing, h.ledger⟩

theorem passLedgerCross_origin {links : List MatchLink} {breaks : List BreakDraft}
    (hb : ∀ b ∈ breaks, Origin runtime input links b) :
    @Crossed runtime input links (passLedgerCross runtime input.policy (indexar input.localItems) links breaks
      (indexar input.ledger)) := by
  have hstart : @Crossed runtime input links ⟨[], breaks, indexar input.ledger⟩ :=
    ⟨fun m hm => by simp at hm, hb, fun _ _ h => h⟩
  have hcross := List.foldlRecOn links (crossStep runtime input.policy (indexar input.localItems)
    (indexarPorTransacao (indexar input.ledger))) hstart fun _ h link hlink => h.step runtime hlink
  unfold passLedgerCross
  dsimp only
  have hleft := List.foldlRecOn (motive := fun pool : Pool => ∀ k v, pool.get k = some v →
      (indexar input.ledger).get k = some v) (indexar input.localItems).values
    (consumeLocal runtime (indexarPorTransacao (indexar input.ledger))) hcross.ledger
    fun pool ih c _ k v hk => by
      unfold consumeLocal at hk
      split at hk
      · exact ih k v (consumir_get _ hk)
      · exact ih k v hk
  refine ⟨hcross.matched, fun b hb => ?_, hleft⟩
  obtain hb | hb := List.mem_append.mp hb
  · exact hcross.breaks b hb
  · obtain ⟨l, hl, rfl⟩ := List.mem_map.mp hb
    exact .orphan (indexed_of_sorted runtime hleft hl)

/-- Every break the motor emits has one of the origins. -/
theorem reconcile_origin {b : BreakDraft} (hb : b ∈ (reconcile runtime input).breaks) :
    Origin runtime input (reconcile runtime input).matched b := by
  have hstart : Traced input ⟨indexar input.provider, indexar input.localItems, [], [], []⟩ :=
    ⟨fun _ _ h => h, fun _ _ h => h, fun m hm => by simp at hm, fun b hb => by simp at hb⟩
  have hwindowed := passWindowedFuzzy_origin runtime
    ((hstart.passStrong runtime).passDeterministicFuzzy runtime)
  have hcross := passLedgerCross_origin runtime hwindowed
  unfold reconcile at hb ⊢
  dsimp only at hb ⊢
  unfold passBalance at hb
  dsimp only at hb
  split at hb
  · exact (hcross.breaks b hb).links runtime hcross.matched
  · exact (hcross.breaks b hb).links runtime hcross.matched
  · split at hb
    · exact (hcross.breaks b hb).links runtime hcross.matched
    · split at hb
      · exact (hcross.breaks b hb).links runtime hcross.matched
      · next hne _ =>
        obtain hb | hb := List.mem_append.mp hb
        · exact (hcross.breaks b hb).links runtime hcross.matched
        · rw [List.mem_singleton.mp hb]
          exact .balance hne

end BaasConnector.Reconciliation.Origins
