import BaasConnector.MockBank.Requests

namespace BaasConnector.MockBank.RequestInvariant

open BaasConnector.Lib.Keyed BaasConnector.Ledger.Types BaasConnector.Ledger.Engine
open BaasConnector.Ledger.MemoryStore BaasConnector.Ledger.Outcomes BaasConnector.Ledger.Calls
open BaasConnector.MockBank.Ledger BaasConnector.MockBank.Payments BaasConnector.MockBank.Requests

variable {store store' : MockBankStore} {underway underway' : Table String Underway} {request : Request}
  {new p p₀ original : MockPayment} {id id' key text : String} {a : Option String}

/-- What no step changes of a payment. -/
def fixed (p : MockPayment) : MockPayment :=
  { p with status := .PROCESSING, refundedCents := 0, settledAt := none }

section Facts

variable {α : Type}

/-- A fact about the payment of an id. -/
def fact (f : MockPayment → Option α) (store : MockBankStore) (id : String) : Option α :=
  (store.payments.get id).bind f

def keyOf (p : MockPayment) : Option String := given p.idempotencyKey

def textOf (p : MockPayment) : Option String := given p.endToEndId

def movementOf (p : MockPayment) : Option String :=
  p.ledgerPendingTransactionId <|> p.ledgerPostedTransactionId

variable {f : MockPayment → Option α}

theorem fact_persist (f : MockPayment → Option α) (store : MockBankStore) (new : MockPayment) (id : String) :
    fact f (persist store new) id = if id = new.id then f new else fact f store id := by
  have hget : (persist store new).payments.get id = if id = new.id then some new else store.payments.get id :=
    Rows.get_put store.payments id new
  rw [fact, hget]
  split
  · rfl
  · rfl

theorem fact_put (hget : store.payments.get p.id = some p₀) (hf : f p = f p₀) (id : String) :
    fact f { store with payments := store.payments.put p } id = fact f store id := by
  change ((store.payments.put p).get id).bind f = (store.payments.get id).bind f
  rw [Rows.get_put]
  split
  · next heq => rw [heq, hget, Option.bind_some, Option.bind_some, hf]
  · rfl

theorem fact_none (h : store.payments.get id = none) : fact f store id = none := by
  rw [fact, h]
  rfl

end Facts

/-- A payment that is put in another's place and keeps all that is fixed. -/
structure Touches (store store' : MockBankStore) (p p₀ : MockPayment) : Prop where
  got : store.payments.get p.id = some p₀
  fixed : RequestInvariant.fixed p = RequestInvariant.fixed p₀
  eq : store' = { store with payments := store.payments.put p }

theorem Touches.fact {α : Type} {f : MockPayment → Option α} (h : Touches store store' p p₀)
    (hf : ∀ p, f (RequestInvariant.fixed p) = f p) (id : String) : fact f store' id = fact f store id := by
  rw [h.eq]
  exact fact_put h.got (by rw [← hf, h.fixed, hf]) id

theorem Touches.get (h : Touches store store' p p₀) (id : String) :
    store'.payments.get id = if id = p.id then some p else store.payments.get id := by
  rw [h.eq]
  exact Rows.get_put store.payments id p

theorem Touches.none (h : Touches store store' p p₀) (hnone : store.payments.get id = none) :
    store'.payments.get id = none := by
  rw [h.get, if_neg, hnone]
  rintro rfl
  rw [h.got] at hnone
  cases hnone

/-- Every request underway was underway before. -/
def Within (underway underway' : Table String Underway) : Prop :=
  ∀ {id u'}, underway'.get id = some u' → ∃ u, underway.get id = some u ∧ u'.request = u.request

theorem within_delete (underway : Table String Underway) (id : String) :
    Within underway (underway.delete id) := by
  intro id' u' hget
  rw [Table.get_delete] at hget
  split at hget
  · cases hget
  · exact ⟨u', hget, rfl⟩

theorem within_answer (h : underway.get id = some ⟨request, a⟩) (b : Option String) :
    Within underway (underway.set id ⟨request, b⟩) := by
  intro id' u' hget
  rw [Table.get_set] at hget
  split at hget
  · next heq =>
    obtain rfl := Option.some.inj hget
    rw [heq]
    exact ⟨_, h, rfl⟩
  · exact ⟨u', hget, rfl⟩

section Keys

/-- Each key stands for one payment, recorded or underway. -/
structure KeysHeld (store : MockBankStore) (underway : Table String Underway) : Prop where
  indexed : ∀ {id key}, fact keyOf store id = some key →
    store.paymentsByIdempotencyKey.get key = some id ∧ id ≠ ""
  apart : ∀ {id u}, underway.get id = some u → u.request.id = id ∧ id ≠ "" ∧ store.payments.get id = none
  unrecorded : ∀ {id u key}, underway.get id = some u → given u.request.idempotencyKey = some key →
    ∀ id', fact keyOf store id' ≠ some key
  one : ∀ {id id' u u' key}, underway.get id = some u → underway.get id' = some u' →
    given u.request.idempotencyKey = some key → given u'.request.idempotencyKey = some key → id = id'

theorem KeysHeld.within (h : KeysHeld store underway) (hwithin : Within underway underway') :
    KeysHeld store underway' := by
  refine ⟨h.indexed, fun hget => ?_, fun hget hkey => ?_, fun hget hget' hkey hkey' => ?_⟩
  · obtain ⟨u, hu, hsame⟩ := hwithin hget
    rw [hsame]
    exact h.apart hu
  · obtain ⟨u, hu, hsame⟩ := hwithin hget
    rw [hsame] at hkey
    exact h.unrecorded hu hkey
  · obtain ⟨u, hu, hsame⟩ := hwithin hget
    obtain ⟨u', hu', hsame'⟩ := hwithin hget'
    rw [hsame] at hkey
    rw [hsame'] at hkey'
    exact h.one hu hu' hkey hkey'

theorem KeysHeld.come (h : KeysHeld store underway) (hid : request.id ≠ "")
    (hnew : store.payments.get request.id = none)
    (hunrecorded : ∀ key, given request.idempotencyKey = some key → ∀ id', fact keyOf store id' ≠ some key)
    (hone : ∀ key, given request.idempotencyKey = some key → ∀ id u, underway.get id = some u →
      given u.request.idempotencyKey ≠ some key) :
    KeysHeld store (underway.set request.id ⟨request, a⟩) := by
  refine ⟨h.indexed, fun {id u} hget => ?_, fun {id u key} hget hkey => ?_,
    fun {id id' u u' key} hget hget' hkey hkey' => ?_⟩
  · rw [Table.get_set] at hget
    split at hget
    · next heq =>
      obtain rfl := Option.some.inj hget
      rw [heq]
      exact ⟨rfl, hid, hnew⟩
    · exact h.apart hget
  · rw [Table.get_set] at hget
    split at hget
    · obtain rfl := Option.some.inj hget
      exact hunrecorded key hkey
    · exact h.unrecorded hget hkey
  · rw [Table.get_set] at hget hget'
    split at hget
    · next heq =>
      obtain rfl := Option.some.inj hget
      split at hget'
      · next heq' => rw [heq, heq']
      · exact absurd hkey' (hone key hkey id' u' hget')
    · split at hget'
      · obtain rfl := Option.some.inj hget'
        exact absurd hkey (hone key hkey' id u hget)
      · exact h.one hget hget' hkey hkey'

theorem KeysHeld.touch (h : KeysHeld store underway) (ht : Touches store store' p p₀) :
    KeysHeld store' underway := by
  have hfact : ∀ id, fact keyOf store' id = fact keyOf store id := ht.fact fun _ => rfl
  refine ⟨fun hkey => ?_, fun hget => ?_, fun hget hkey id' => ?_, h.one⟩
  · rw [hfact] at hkey
    rw [ht.eq]
    exact h.indexed hkey
  · obtain ⟨hid, hne, hnone⟩ := h.apart hget
    exact ⟨hid, hne, ht.none hnone⟩
  · rw [hfact]
    exact h.unrecorded hget hkey id'

theorem KeysHeld.persist (h : KeysHeld store underway) (hid : new.id ≠ "")
    (hnone : underway.get new.id = none)
    (hfree : ∀ key, keyOf new = some key → (∀ id', fact keyOf store id' ≠ some key) ∧
      ∀ id u, underway.get id = some u → given u.request.idempotencyKey ≠ some key) :
    KeysHeld (persist store new) underway := by
  refine ⟨fun {id key} hkey => ?_, fun {id u} hget => ?_, fun {id u key} hget hkey id' => ?_, h.one⟩
  · rw [fact_persist] at hkey
    have hindex : ∀ key', keyOf new = some key' →
        (Payments.persist store new).paymentsByIdempotencyKey =
          store.paymentsByIdempotencyKey.set key' new.id := by
      intro key' hkey'
      unfold Payments.persist
      rw [show given new.idempotencyKey = some key' from hkey']
    split at hkey
    · next heq =>
      rw [hindex key hkey, heq]
      exact ⟨Table.get_set_self _ _ _, hid⟩
    · obtain ⟨hget, hne⟩ := h.indexed hkey
      refine ⟨?_, hne⟩
      cases hnew : keyOf new with
      | none =>
        unfold Payments.persist
        rw [show given new.idempotencyKey = none from hnew]
        exact hget
      | some key' =>
        rw [hindex key' hnew, Table.get_set_ne]
        · exact hget
        · rintro rfl
          exact (hfree _ hnew).1 id hkey
  · obtain ⟨hsame, hne, hold⟩ := h.apart hget
    refine ⟨hsame, hne, ?_⟩
    change (store.payments.put new).get id = none
    rw [Rows.get_put, if_neg, hold]
    rintro rfl
    rw [hnone] at hget
    cases hget
  · rw [fact_persist]
    split
    · intro hnew
      exact (hfree key hnew).2 id u hget hkey
    · exact h.unrecorded hget hkey id'

/-- A key that is not recorded is found with no payment. -/
theorem KeysHeld.unfound (h : KeysHeld store underway) {idempotencyKey : Option String}
    (hnone : existingId store idempotencyKey = none) (hkey : given idempotencyKey = some key) (id : String) :
    fact keyOf store id ≠ some key := by
  intro hfact
  obtain ⟨hget, hne⟩ := h.indexed hfact
  rw [existingId, hkey, Option.bind_some, hget, given, Option.filter_some,
    if_pos (decide_eq_true hne)] at hnone
  cases hnone

end Keys

section Refunds

/-- What is recorded as given back of the payment with this text. -/
def refunded (store : MockBankStore) (text : String) : Int :=
  store.payments.total fun q => if q.originalEndToEndId = some text then q.amountCents else 0

/-- The refund asks for something. -/
def Positive : Request → Prop
  | .send .. => True
  | .refund _ original _ input => 0 < refundAmount original input

/-- The payment that a refund gives back is recorded. -/
def Aimed (store : MockBankStore) : Request → Prop
  | .send .. => True
  | .refund _ original _ input => ∃ o, store.payments.get original.id = some o ∧ fixed o = fixed original ∧
    textOf o = some input.originalEndToEndId

/-- A payment counts what is given back of it, and has room for what is underway. -/
structure RefundsHeld (store : MockBankStore) (underway : Table String Underway) : Prop where
  indexed : ∀ {id text}, store.paymentsByEndToEndId.get text = some id ↔ fact textOf store id = some text
  unindexed : ∀ {id u text}, underway.get id = some u → u.request.endToEndId = some text →
    store.paymentsByEndToEndId.get text = none
  one : ∀ {id id' u u' text}, underway.get id = some u → underway.get id' = some u' →
    u.request.endToEndId = some text → u'.request.endToEndId = some text → id = id'
  named : ∀ {id q text}, store.payments.get id = some q → q.originalEndToEndId = some text →
    0 < q.amountCents ∧ store.paymentsByEndToEndId.get text ≠ none
  counted : ∀ {id o text}, store.payments.get id = some o → textOf o = some text →
    o.refundedCents = refunded store text
  room : ∀ {id o}, store.payments.get id = some o →
    o.refundedCents + givingBack underway id ≤ max o.amountCents 0
  aimed : ∀ {id u}, underway.get id = some u → Aimed store u.request
  positive : ∀ {id u}, underway.get id = some u → u.answered ≠ none → Positive u.request

theorem givingBack_nonneg (request : Request) (originalId : String) : 0 ≤ request.givingBack originalId := by
  unfold Request.givingBack
  split
  · exact Int.le_refl 0
  · split
    · exact Int.le_max_right _ _
    · exact Int.le_refl 0

/-- Nothing is given back of a payment that is not recorded. -/
theorem RefundsHeld.givingBack_new (h : RefundsHeld store underway) (hnone : store.payments.get id = none) :
    givingBack underway id = 0 := by
  refine Table.total_zero fun k u hget => ?_
  have haimed := h.aimed hget
  obtain ⟨request, answered⟩ := u
  cases request with
  | send => rfl
  | refund mint original account input =>
    obtain ⟨o, ho, -⟩ := haimed
    refine if_neg ?_
    rintro rfl
    rw [hnone] at ho
    cases ho

/-- Nothing names a text that is not indexed. -/
theorem RefundsHeld.refunded_new (h : RefundsHeld store underway)
    (hnone : store.paymentsByEndToEndId.get text = none) : refunded store text = 0 :=
  Rows.total_zero fun _ _ hget => if_neg fun hnames => (h.named hget hnames).2 hnone

theorem RefundsHeld.within (h : RefundsHeld store underway) (hwithin : Within underway underway')
    (hgiving : ∀ id, givingBack underway' id ≤ givingBack underway id)
    (hpositive : ∀ {id u}, underway'.get id = some u → u.answered ≠ none → Positive u.request) :
    RefundsHeld store underway' := by
  refine ⟨h.indexed, fun hget htext => ?_, fun hget hget' htext htext' => ?_, h.named, h.counted,
    fun {id o} hget => ?_, fun hget => ?_, hpositive⟩
  · obtain ⟨u, hu, hsame⟩ := hwithin hget
    rw [hsame] at htext
    exact h.unindexed hu htext
  · obtain ⟨u, hu, hsame⟩ := hwithin hget
    obtain ⟨u', hu', hsame'⟩ := hwithin hget'
    rw [hsame] at htext
    rw [hsame'] at htext'
    exact h.one hu hu' htext htext'
  · have hroom := h.room hget
    have hless := hgiving id
    omega
  · obtain ⟨u, hu, hsame⟩ := hwithin hget
    rw [hsame]
    exact h.aimed hu

theorem givingBack_delete {u : Underway} (hget : underway.get id = some u) (originalId : String) :
    givingBack underway originalId = givingBack (underway.delete id) originalId +
      u.request.givingBack originalId := Table.total_delete hget

theorem RefundsHeld.delete {u : Underway} (h : RefundsHeld store underway) (hget : underway.get id = some u) :
    RefundsHeld store (underway.delete id) := by
  refine h.within (within_delete underway id) (fun originalId => ?_) fun {id' u'} hin => ?_
  · have htotal := givingBack_delete hget originalId
    have hnonneg := givingBack_nonneg u.request originalId
    omega
  · rw [Table.get_delete] at hin
    split at hin
    · cases hin
    · exact h.positive hin

theorem RefundsHeld.answer (h : RefundsHeld store underway) (hget : underway.get id = some ⟨request, a⟩)
    (hpositive : Positive request) (b : Option String) :
    RefundsHeld store (underway.set id ⟨request, b⟩) := by
  refine h.within (within_answer hget b) (fun originalId => ?_) fun {id' u} hin => ?_
  · have hsame : givingBack (underway.set id ⟨request, b⟩) originalId = givingBack underway originalId :=
      Table.total_set_same hget rfl
    exact hsame.le
  · rw [Table.get_set] at hin
    split at hin
    · obtain rfl := Option.some.inj hin
      exact fun _ => hpositive
    · exact h.positive hin

theorem RefundsHeld.come (h : RefundsHeld store underway) (hnew : underway.get request.id = none)
    (htext : ∀ text, request.endToEndId = some text → store.paymentsByEndToEndId.get text = none ∧
      ∀ id u, underway.get id = some u → u.request.endToEndId ≠ some text)
    (hroom : ∀ id o, store.payments.get id = some o →
      o.refundedCents + givingBack underway id + request.givingBack id ≤ max o.amountCents 0)
    (haimed : Aimed store request) :
    RefundsHeld store (underway.set request.id ⟨request, none⟩) := by
  refine ⟨h.indexed, fun {id u text} hget hu => ?_, fun {id id' u u' text} hget hget' hu hu' => ?_, h.named,
    h.counted, fun {id o} hget => ?_, fun {id u} hget => ?_, fun {id u} hget => ?_⟩
  · rw [Table.get_set] at hget
    split at hget
    · obtain rfl := Option.some.inj hget
      exact (htext text hu).1
    · exact h.unindexed hget hu
  · rw [Table.get_set] at hget hget'
    split at hget
    · next heq =>
      obtain rfl := Option.some.inj hget
      split at hget'
      · next heq' => rw [heq, heq']
      · exact absurd hu' ((htext text hu).2 id' u' hget')
    · split at hget'
      · obtain rfl := Option.some.inj hget'
        exact absurd hu ((htext text hu').2 id u hget)
      · exact h.one hget hget' hu hu'
  · have htotal : givingBack (underway.set request.id ⟨request, none⟩) id =
        givingBack underway id + request.givingBack id := Table.total_set_new _ hnew
    have hfits := hroom id o hget
    omega
  · rw [Table.get_set] at hget
    split at hget
    · obtain rfl := Option.some.inj hget
      exact haimed
    · exact h.aimed hget
  · rw [Table.get_set] at hget
    split at hget
    · obtain rfl := Option.some.inj hget
      exact fun hanswered => absurd rfl hanswered
    · exact h.positive hget

theorem fixed_amount (h : fixed p = fixed p₀) : p.amountCents = p₀.amountCents := by
  have hamount := congrArg MockPayment.amountCents h
  exact hamount

theorem fixed_names (h : fixed p = fixed p₀) : p.originalEndToEndId = p₀.originalEndToEndId := by
  have hnames := congrArg MockPayment.originalEndToEndId h
  exact hnames

theorem Touches.refunded (h : Touches store store' p p₀) (text : String) :
    refunded store' text = refunded store text := by
  rw [h.eq]
  refine Rows.total_put_same p₀ h.got ?_
  rw [fixed_amount h.fixed, fixed_names h.fixed]

theorem Aimed.touch (h : Aimed store request) (ht : Touches store store' p p₀) : Aimed store' request := by
  cases request with
  | send => trivial
  | refund mint original account input =>
    obtain ⟨o, ho, hfixed, htext⟩ := h
    by_cases heq : original.id = p.id
    · obtain rfl := Option.some.inj (ht.got.symm.trans (heq ▸ ho))
      refine ⟨p, by rw [ht.get, if_pos heq], ht.fixed.trans hfixed, ?_⟩
      exact (congrArg textOf ht.fixed).trans htext
    · exact ⟨o, by rw [ht.get, if_neg heq]; exact ho, hfixed, htext⟩

theorem RefundsHeld.touch (h : RefundsHeld store underway) (ht : Touches store store' p p₀)
    (hrefunded : p.refundedCents = p₀.refundedCents) : RefundsHeld store' underway := by
  have hfact : ∀ id, fact textOf store' id = fact textOf store id := ht.fact fun _ => rfl
  have hindex : store'.paymentsByEndToEndId = store.paymentsByEndToEndId := by rw [ht.eq]
  have hold : ∀ {id q}, store'.payments.get id = some q → ∃ q₀, store.payments.get id = some q₀ ∧
      fixed q = fixed q₀ ∧ q.refundedCents = q₀.refundedCents := by
    intro id q hget
    rw [ht.get] at hget
    split at hget
    · next heq =>
      obtain rfl := Option.some.inj hget
      exact ⟨p₀, heq ▸ ht.got, ht.fixed, hrefunded⟩
    · exact ⟨q, hget, rfl, rfl⟩
  refine ⟨fun {id text} => ?_, fun hget htext => ?_, h.one, fun hget hnames => ?_, fun hget htext => ?_,
    fun hget => ?_, fun hget => (h.aimed hget).touch ht, h.positive⟩
  · rw [hindex, hfact]
    exact h.indexed
  · rw [hindex]
    exact h.unindexed hget htext
  · obtain ⟨q₀, hq, hfixed, -⟩ := hold hget
    rw [hindex, fixed_amount hfixed]
    exact h.named hq ((fixed_names hfixed).symm.trans hnames)
  · obtain ⟨q₀, hq, hfixed, hsame⟩ := hold hget
    rw [hsame, ht.refunded]
    exact h.counted hq ((congrArg textOf hfixed).symm.trans htext)
  · obtain ⟨q₀, hq, hfixed, hsame⟩ := hold hget
    rw [hsame, fixed_amount hfixed]
    exact h.room hq

/-- A payment is recorded that gives nothing back. -/
theorem RefundsHeld.persist (h : RefundsHeld store underway) (hnew : store.payments.get new.id = none)
    (hnames : new.originalEndToEndId = none) (hrefunded : new.refundedCents = 0)
    (htext : ∀ text, textOf new = some text → store.paymentsByEndToEndId.get text = none ∧
      ∀ id u, underway.get id = some u → u.request.endToEndId ≠ some text) :
    RefundsHeld (persist store new) underway := by
  have hget : ∀ id, (Payments.persist store new).payments.get id =
      if id = new.id then some new else store.payments.get id := fun id => Rows.get_put store.payments id new
  have htotal : ∀ text, refunded (Payments.persist store new) text = refunded store text := by
    intro text
    have hput : refunded (Payments.persist store new) text = refunded store text +
        if new.originalEndToEndId = some text then new.amountCents else 0 := Rows.total_put_new hnew
    rw [hput, hnames, if_neg (by simp), Int.add_zero]
  have hindex : ∀ text, (Payments.persist store new).paymentsByEndToEndId.get text =
      if textOf new = some text then some new.id else store.paymentsByEndToEndId.get text := by
    intro text
    unfold Payments.persist
    cases hnewtext : given new.endToEndId with
    | none =>
      rw [if_neg (by rw [textOf, hnewtext]; simp)]
    | some text' =>
      rw [textOf, hnewtext]
      dsimp only
      rw [Table.get_set]
      simp only [Option.some.injEq, eq_comm]
  refine ⟨fun {id text} => ?_, fun {id u text} hu hue => ?_, h.one, fun {id q text} hq hqnames => ?_,
    fun {id o text} ho hot => ?_, fun {id o} ho => ?_, fun {id u} hu => ?_, h.positive⟩
  · rw [hindex, fact_persist]
    by_cases hnewtext : textOf new = some text
    · rw [if_pos hnewtext]
      have hnotold : ∀ id, fact textOf store id ≠ some text := fun id hf => by
        rw [← h.indexed, (htext text hnewtext).1] at hf
        cases hf
      by_cases hid : id = new.id
      · rw [if_pos hid, hid]
        simp [hnewtext]
      · rw [if_neg hid]
        simp [Ne.symm hid, hnotold id]
    · rw [if_neg hnewtext]
      by_cases hid : id = new.id
      · rw [if_pos hid, hid]
        simp only [hnewtext, iff_false]
        intro hold
        rw [h.indexed, fact_none hnew] at hold
        cases hold
      · rw [if_neg hid]
        exact h.indexed
  · rw [hindex, if_neg]
    · exact h.unindexed hu hue
    · intro hnewtext
      exact (htext text hnewtext).2 id u hu hue
  · rw [hget] at hq
    split at hq
    · obtain rfl := Option.some.inj hq
      rw [hnames] at hqnames
      cases hqnames
    · obtain ⟨hpositive, hindexed⟩ := h.named hq hqnames
      refine ⟨hpositive, ?_⟩
      rw [hindex]
      split
      · simp
      · exact hindexed
  · rw [htotal]
    rw [hget] at ho
    split at ho
    · obtain rfl := Option.some.inj ho
      rw [hrefunded, h.refunded_new (htext text hot).1]
    · exact h.counted ho hot
  · rw [hget] at ho
    split at ho
    · next heq =>
      obtain rfl := Option.some.inj ho
      rw [hrefunded, heq, h.givingBack_new hnew]
      exact Int.le_max_right _ _
    · exact h.room ho
  · have haimed := h.aimed hu
    cases hr : u.request with
    | send => trivial
    | refund mint original account input =>
      rw [hr] at haimed
      obtain ⟨o, ho, hrest⟩ := haimed
      refine ⟨o, ?_, hrest⟩
      rw [hget, if_neg]
      · exact ho
      · intro heq
        rw [heq, hnew] at ho
        cases ho

theorem touches_givenBack (hget : store.payments.get id = some original) (amountCents : Int) :
    Touches store (withGivenBack store id amountCents) (givenBack original amountCents) original := by
  have hid : original.id = id := Rows.key_of_get hget
  refine ⟨?_, rfl, ?_⟩
  · change store.payments.get original.id = _
    rw [hid, hget]
  · rw [withGivenBack, hget]

/-- A refund is recorded, and taken off what is underway. -/
theorem RefundsHeld.refund {mint : PaymentMint} {account : MockAccount} {input : RefundPixInput}
    {transactionId : String} (h : RefundsHeld store underway)
    (hget : underway.get id = some ⟨.refund mint original account input, some transactionId⟩)
    (hid : mint.id = id) (hnew : store.payments.get id = none) :
    RefundsHeld (Payments.persist (withGivenBack store original.id (refundAmount original input))
      (refundPayment mint original account input transactionId)) (underway.delete id) := by
  have hrest := h.delete hget
  have hpositive : 0 < refundAmount original input := h.positive hget (by simp)
  obtain ⟨o, ho, hfixed, htexto⟩ := h.aimed hget
  have hoid : o.id = original.id := Rows.key_of_get ho
  have ht := touches_givenBack ho (refundAmount original input)
  generalize withGivenBack store original.id (refundAmount original input) = back at ht ⊢
  have hindexed : store.paymentsByEndToEndId.get input.originalEndToEndId = some original.id :=
    h.indexed.mpr (by rw [fact, ho, Option.bind_some, htexto])
  have hnewgiven : back.payments.get id = none := ht.none hnew
  have hpersisted : ∀ id', (Payments.persist back (refundPayment mint original account input
      transactionId)).payments.get id' = if id' = id then some (refundPayment mint original account input
        transactionId) else back.payments.get id' := fun id' => by
    rw [← hid]
    exact Rows.get_put back.payments id' _
  have hindex : (Payments.persist back (refundPayment mint original account input
      transactionId)).paymentsByEndToEndId = store.paymentsByEndToEndId := by
    have hsame : back.paymentsByEndToEndId = store.paymentsByEndToEndId := by rw [ht.eq]
    rw [← hsame]
    rfl
  have htotal : ∀ text, refunded (Payments.persist back (refundPayment mint original account input
      transactionId)) text = refunded store text +
        if input.originalEndToEndId = text then refundAmount original input else 0 := by
    intro text
    have hput : refunded (Payments.persist back (refundPayment mint original account input
        transactionId)) text = refunded back text + if (some input.originalEndToEndId = some text) then
          refundAmount original input else 0 := Rows.total_put_new (by
            change back.payments.get mint.id = none
            rw [hid, hnewgiven])
    rw [hput, ht.refunded]
    simp only [Option.some.injEq]
  have hgiving : ∀ id', givingBack underway id' = givingBack (underway.delete id) id' +
      if original.id = id' then max (refundAmount original input) 0 else 0 := givingBack_delete hget
  refine ⟨fun {id' text} => ?_, fun hu hue => ?_, hrest.one, fun {id' q text} hq hqnames => ?_,
    fun {id' o' text} ho' hot => ?_, fun {id' o'} ho' => ?_, fun {id' u} hu => ?_, hrest.positive⟩
  · rw [hindex, fact_persist]
    split
    · next heq =>
      have hnone : fact textOf store id' = none := by
        rw [heq, show (refundPayment mint original account input transactionId).id = id from hid]
        exact fact_none hnew
      rw [h.indexed, hnone]
      exact Iff.rfl
    · have hsame : fact textOf back id' = fact textOf store id' := ht.fact (fun _ => rfl) id'
      rw [hsame]
      exact h.indexed
  · rw [hindex]
    exact hrest.unindexed hu hue
  · rw [hindex]
    rw [hpersisted] at hq
    split at hq
    · obtain rfl := Option.some.inj hq
      obtain rfl := Option.some.inj hqnames
      refine ⟨hpositive, ?_⟩
      rw [hindexed]
      exact Option.some_ne_none _
    · rw [ht.get] at hq
      split at hq
      · obtain rfl := Option.some.inj hq
        have hkept := h.named ho hqnames
        exact hkept
      · exact h.named hq hqnames
  · rw [htotal]
    rw [hpersisted] at ho'
    split at ho'
    · obtain rfl := Option.some.inj ho'
      cases hot
    · rw [ht.get] at ho'
      split at ho'
      · next heq =>
        obtain rfl := Option.some.inj ho'
        have hsame : text = input.originalEndToEndId := Option.some.inj (hot.symm.trans htexto)
        rw [hsame, if_pos rfl, ← h.counted ho htexto]
        rfl
      · next hne =>
        have hother : input.originalEndToEndId ≠ text := by
          rintro rfl
          have hfact : fact textOf store id' = some input.originalEndToEndId := by
            rw [fact, ho', Option.bind_some, hot]
          have hsame := Option.some.inj (hindexed.symm.trans (h.indexed.mpr hfact))
          exact hne (hsame.symm.trans hoid.symm)
        rw [if_neg hother, Int.add_zero]
        exact h.counted ho' hot
  · rw [hpersisted] at ho'
    split at ho'
    · next heq =>
      obtain rfl := Option.some.inj ho'
      have hzero : givingBack (underway.delete id) id' = 0 := heq ▸ hrest.givingBack_new hnew
      rw [hzero]
      exact Int.le_max_right _ _
    · have hshare := hgiving id'
      rw [ht.get] at ho'
      split at ho'
      · next heq =>
        obtain rfl := Option.some.inj ho'
        have hsame : original.id = id' := hoid.symm.trans heq.symm
        rw [if_pos hsame] at hshare
        have hroom := h.room (hsame ▸ ho)
        change o.refundedCents + refundAmount original input + givingBack (underway.delete id) id' ≤
          max o.amountCents 0
        omega
      · next hne =>
        rw [if_neg fun hsame => hne (hsame.symm.trans hoid.symm), Int.add_zero] at hshare
        rw [← hshare]
        exact h.room ho'
  · have haimed := (hrest.aimed hu).touch ht
    cases hr : u.request with
    | send => trivial
    | refund mint' original' account' input' =>
      rw [hr] at haimed
      obtain ⟨o', ho', hkept⟩ := haimed
      refine ⟨o', ?_, hkept⟩
      rw [hpersisted, if_neg]
      · exact ho'
      · intro heq
        rw [heq, hnewgiven] at ho'
        cases ho'

end Refunds

section Movements

variable {l l' : LedgerStore} {call : EngineCall} {mint : Mint} {posted : PostTransactionInput}
  {r : PostTransactionResult} {transactionId : String}

def Moving (type : LedgerTransactionType) : Prop := type = .PIX_OUT_AUTHORIZE ∨ type = .PIX_REFUND_OUT

/-- The call is of no type that requests move with. -/
def Silent : EngineCall → Prop
  | .post _ input => ¬ Moving input.type
  | .resolvePending _ _ options _ => ∃ type, options.type = some type ∧ ¬ Moving type

/-- Between two ledgers nothing is moved for a request, and nothing that was is lost. -/
structure Quiet (l l' : LedgerStore) : Prop where
  before : ∀ {transactionId t' id}, l'.transactions.get transactionId = some t' → MovementFor id t' →
    ∃ t, l.transactions.get transactionId = some t ∧ MovementFor id t
  after : ∀ {transactionId t id}, l.transactions.get transactionId = some t → MovementFor id t →
    ∃ t', l'.transactions.get transactionId = some t' ∧ MovementFor id t'

theorem Quiet.refl (l : LedgerStore) : Quiet l l := ⟨fun h hm => ⟨_, h, hm⟩, fun h hm => ⟨_, h, hm⟩⟩

theorem run_after (hkept : Kept l) (hfresh : call.Fresh l) {t : LedgerTransaction}
    (hget : l.transactions.get transactionId = some t) (hm : MovementFor id t) :
    ∃ t', (call.run l).2.transactions.get transactionId = some t' ∧ MovementFor id t' := by
  obtain ⟨t', ht', hsame, -⟩ := ((run_outcome l call).grows hkept.indexed hfresh).transactions _ t hget
  refine ⟨t', ht', ?_⟩
  have htype := congrArg LedgerTransaction.type hsame
  have href := congrArg LedgerTransaction.externalRef hsame
  rw [MovementFor, htype, href]
  exact hm

/-- What stands in the ledger after a call stood there before, or came with it. -/
theorem run_before {t' : LedgerTransaction} (hget : (call.run l).2.transactions.get transactionId = some t')
    (hm : MovementFor id t') : (∃ t, l.transactions.get transactionId = some t ∧ MovementFor id t) ∨
      ¬ Silent call ∧ ∀ m input, call = .post m input → input.externalRef = some id ∧
        ∃ r, (call.run l).1 = .ok r ∧ r.transaction.id = transactionId := by
  have ho := run_outcome l call
  generalize (call.run l).1 = r, (call.run l).2 = l' at ho hget
  cases ho with
  | failed => exact .inl ⟨t', hget, hm⟩
  | replayed => exact .inl ⟨t', hget, hm⟩
  | posted mint input debits es after hkey hbalanced hbuilt =>
    rw [persist_get] at hget
    split at hget
    · next heq =>
      obtain rfl := Option.some.inj hget
      refine .inr ⟨fun hsilent => hsilent hm.1, fun m input' hcall => ?_⟩
      obtain ⟨rfl, rfl⟩ := EngineCall.post.inj hcall
      exact ⟨hm.2, _, rfl, heq.symm⟩
    · exact .inl ⟨t', hget, hm⟩
  | resolved mint hold options commit pending es after hkey hpendingGet hpending hbuilt =>
    rw [resolved, persist_get, persist_get] at hget
    split at hget
    · next heq =>
      obtain rfl := Option.some.inj hget
      have hid : pending.id = hold := Rows.key_of_get hpendingGet
      have hsame : transactionId = hold := heq.trans hid
      rw [hsame]
      exact .inl ⟨pending, hpendingGet, hm⟩
    · split at hget
      · obtain rfl := Option.some.inj hget
        refine .inr ⟨fun hsilent => ?_, fun m input hcall => by cases hcall⟩
        obtain ⟨type, htype, hnot⟩ := hsilent
        have hmoving : Moving (options.type.getD pending.type) := hm.1
        rw [htype] at hmoving
        exact hnot hmoving
      · exact .inl ⟨t', hget, hm⟩

theorem run_quiet (hkept : Kept l) (hfresh : call.Fresh l) (hsilent : Silent call) :
    Quiet l (call.run l).2 := by
  refine ⟨fun hget hm => ?_, fun hget hm => run_after hkept hfresh hget hm⟩
  obtain hold | ⟨hnot, -⟩ := run_before hget hm
  · exact hold
  · exact absurd hsilent hnot

/-- The ledger has moved something for every request it has answered, and for none else. -/
structure MovementsHeld (l : LedgerStore) (store : MockBankStore) (underway : Table String Underway) :
    Prop where
  kept : Kept l
  made : ∀ {transactionId t id}, l.transactions.get transactionId = some t → MovementFor id t →
    fact movementOf store id = some transactionId ∨
      ∃ u, underway.get id = some u ∧ u.answered = some transactionId
  recorded : ∀ {id key}, fact keyOf store id = some key →
    ∃ transactionId t, l.transactions.get transactionId = some t ∧ MovementFor id t
  answered : ∀ {id u transactionId}, underway.get id = some u → u.answered = some transactionId →
    ∃ t, l.transactions.get transactionId = some t ∧ MovementFor id t

theorem MovementsHeld.quiet (h : MovementsHeld l store underway) (hkept : Kept l') (hquiet : Quiet l l') :
    MovementsHeld l' store underway := by
  refine ⟨hkept, fun hget hm => ?_, fun hkey => ?_, fun hget hanswered => ?_⟩
  · obtain ⟨t, ht, hmt⟩ := hquiet.before hget hm
    exact h.made ht hmt
  · obtain ⟨transactionId, t, ht, hmt⟩ := h.recorded hkey
    obtain ⟨t', ht', hmt'⟩ := hquiet.after ht hmt
    exact ⟨transactionId, t', ht', hmt'⟩
  · obtain ⟨t, ht, hmt⟩ := h.answered hget hanswered
    exact hquiet.after ht hmt

theorem MovementsHeld.come (h : MovementsHeld l store underway) (hnew : underway.get request.id = none) :
    MovementsHeld l store (underway.set request.id ⟨request, none⟩) := by
  refine ⟨h.kept, fun {transactionId t id} hget hm => ?_, h.recorded, fun {id u transactionId} hget ha => ?_⟩
  · obtain hrecorded | ⟨u, hu, hanswered⟩ := h.made hget hm
    · exact .inl hrecorded
    · refine .inr ⟨u, ?_, hanswered⟩
      rw [Table.get_set, if_neg, hu]
      rintro rfl
      rw [hnew] at hu
      cases hu
  · rw [Table.get_set] at hget
    split at hget
    · obtain rfl := Option.some.inj hget
      cases ha
    · exact h.answered hget ha

theorem MovementsHeld.refuse (h : MovementsHeld l store underway)
    (hget : underway.get id = some ⟨request, none⟩) : MovementsHeld l store (underway.delete id) := by
  refine ⟨h.kept, fun {transactionId t id'} hgot hm => ?_, h.recorded,
    fun {id' u transactionId} hgot ha => ?_⟩
  · obtain hrecorded | ⟨u, hu, hanswered⟩ := h.made hgot hm
    · exact .inl hrecorded
    · refine .inr ⟨u, ?_, hanswered⟩
      rw [Table.get_delete, if_neg, hu]
      rintro rfl
      obtain rfl := Option.some.inj (hget.symm.trans hu)
      cases hanswered
  · rw [Table.get_delete] at hgot
    split at hgot
    · cases hgot
    · exact h.answered hgot ha

/-- The ledger answers a request with what it has moved for it. -/
theorem MovementsHeld.answer (h : MovementsHeld l store underway) (hkept : Kept l')
    (hget : underway.get id = some ⟨request, none⟩)
    (hbefore : ∀ {tid t' id'}, l'.transactions.get tid = some t' → MovementFor id' t' →
      (∃ t, l.transactions.get tid = some t ∧ MovementFor id' t) ∨ id' = id ∧ tid = transactionId)
    (hafter : ∀ {tid t id'}, l.transactions.get tid = some t → MovementFor id' t →
      ∃ t', l'.transactions.get tid = some t' ∧ MovementFor id' t')
    (hmoved : ∃ t, l'.transactions.get transactionId = some t ∧ MovementFor id t) :
    MovementsHeld l' store (underway.set id ⟨request, some transactionId⟩) := by
  refine ⟨hkept, fun {tid t id'} hgot hm => ?_, fun hkey => ?_, fun {id' u tid} hgot ha => ?_⟩
  · obtain ⟨t', ht', hm'⟩ | ⟨rfl, rfl⟩ := hbefore hgot hm
    · obtain hrecorded | ⟨u, hu, hanswered⟩ := h.made ht' hm'
      · exact .inl hrecorded
      · refine .inr ⟨u, ?_, hanswered⟩
        rw [Table.get_set, if_neg, hu]
        rintro rfl
        obtain rfl := Option.some.inj (hget.symm.trans hu)
        cases hanswered
    · exact .inr ⟨_, Table.get_set_self _ _ _, rfl⟩
  · obtain ⟨tid, t, ht, hm⟩ := h.recorded hkey
    obtain ⟨t', ht', hm'⟩ := hafter ht hm
    exact ⟨tid, t', ht', hm'⟩
  · rw [Table.get_set] at hgot
    split at hgot
    · next heq =>
      obtain rfl := Option.some.inj hgot
      obtain rfl := Option.some.inj ha
      rw [heq]
      exact hmoved
    · obtain ⟨t, ht, hm⟩ := h.answered hgot ha
      exact hafter ht hm

theorem MovementsHeld.touch (h : MovementsHeld l store underway) (ht : Touches store store' p p₀) :
    MovementsHeld l store' underway := by
  have hkey : ∀ id, fact keyOf store' id = fact keyOf store id := ht.fact fun _ => rfl
  have hmovement : ∀ id, fact movementOf store' id = fact movementOf store id := ht.fact fun _ => rfl
  refine ⟨h.kept, fun hget hm => ?_, fun hid => ?_, h.answered⟩
  · rw [hmovement]
    exact h.made hget hm
  · rw [hkey] at hid
    exact h.recorded hid

/-- What is recorded of a request is what the ledger has moved for it. -/
theorem MovementsHeld.record (h : MovementsHeld l store underway)
    (hget : underway.get id = some ⟨request, some transactionId⟩) (hid : new.id = id)
    (hnew : store.payments.get id = none) (hmovement : movementOf new = some transactionId) :
    MovementsHeld l (persist store new) (underway.delete id) := by
  subst hid
  refine ⟨h.kept, fun {tid t id'} hgot hm => ?_, fun {id' key} hkey => ?_, fun {id' u tid} hgot ha => ?_⟩
  · rw [fact_persist]
    split
    · next heq =>
      subst heq
      obtain hrecorded | ⟨u, hu, hanswered⟩ := h.made hgot hm
      · rw [fact_none hnew] at hrecorded
        cases hrecorded
      · obtain rfl := Option.some.inj (hget.symm.trans hu)
        exact .inl (hmovement.trans hanswered)
    · next hne =>
      rw [Table.get_delete, if_neg hne]
      exact h.made hgot hm
  · rw [fact_persist] at hkey
    split at hkey
    · next heq =>
      obtain ⟨t, ht, hm⟩ := h.answered hget rfl
      rw [heq]
      exact ⟨_, t, ht, hm⟩
    · exact h.recorded hkey
  · rw [Table.get_delete] at hgot
    split at hgot
    · cases hgot
    · exact h.answered hgot ha

/-- A payment is recorded that no request has made. -/
theorem MovementsHeld.persist (h : MovementsHeld l store underway) (hnew : store.payments.get new.id = none)
    (hkey : keyOf new = none) :
    MovementsHeld l (persist store new) underway := by
  refine ⟨h.kept, fun {tid t id'} hgot hm => ?_, fun {id' key} hid => ?_, h.answered⟩
  · obtain hrecorded | hunderway := h.made hgot hm
    · rw [fact_persist, if_neg]
      · exact .inl hrecorded
      · rintro rfl
        rw [fact_none hnew] at hrecorded
        cases hrecorded
    · exact .inr hunderway
  · rw [fact_persist] at hid
    split at hid
    · rw [hkey] at hid
      cases hid
    · exact h.recorded hid

end Movements

end BaasConnector.MockBank.RequestInvariant
