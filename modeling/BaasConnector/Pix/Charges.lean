import BaasConnector.Taxonomy.Emv
import BaasConnector.Taxonomy.Errors
import BaasConnector.Taxonomy.Money
import BaasConnector.Webhooks.ChargeEvents

namespace BaasConnector.Pix.Charges

open BaasConnector.Lib.CodeUnits BaasConnector.Lib.Results BaasConnector.Taxonomy.Emv
open BaasConnector.Taxonomy.Errors BaasConnector.Taxonomy.Money

abbrev PixChargeStatus := Webhooks.ChargeEvents.PixChargeStatus

inductive PixChargeKind
  | STATIC | DYNAMIC_IMMEDIATE | DYNAMIC_DUE
deriving DecidableEq, Repr

structure AccountRecord where
  id : String
  providerAccountId : Option String

structure PixKeyRecord where
  id : String
  accountId : String
  value : Text

/-- A charge as the provider answers it. -/
structure PixCharge where
  txid : String
  status : PixChargeStatus
  revision : Option Nat
  amount : Option MoneyJSON
  emvPayload : Text

structure CreateChargeInput where
  pixKey : Text
  amount : Option MoneyJSON
  txid : Option String

structure CreateChargeDto where
  pix_key_id : String
  kind : PixChargeKind
  amount : Option MoneyJSON
  txid : Option String
  amount_is_changeable : Bool
  external_id : Option String

structure PixChargeRecord where
  accountId : String
  pixKeyId : String
  kind : PixChargeKind
  txid : String
  status : PixChargeStatus
  revision : Nat
  amountCents : Option Int
  amountIsChangeable : Bool
  emvPayload : Text
  providerChargeId : String
  externalId : Option String

/-- What stops a charge from being stored. -/
inductive ChargeFailure
  | baas (code : BaasErrorCode) (message : String) (reason : Option EmvError)
  | range
  | thrown (error : Thrown)

structure Services where
  findAccount : String → Option AccountRecord
  findKey : String → Option PixKeyRecord
  require : String → Except Thrown Unit
  createStatic : String → CreateChargeInput → Except Thrown PixCharge
  createDynamic : String → CreateChargeInput → Except Thrown PixCharge

variable (services : Services) (accountId : String) (dto : CreateChargeDto)

def requireAccount : Except ChargeFailure String :=
  match services.findAccount accountId with
  | none => .error (.baas .ACCOUNT_NOT_FOUND ("Conta " ++ accountId ++ " nao encontrada.") none)
  | some account =>
    match account.providerAccountId.filter (· ≠ "") with
    | none => .error (.baas .ACCOUNT_NOT_ACTIVE "A conta ainda nao foi aberta no provedor." none)
    | some providerAccountId => .ok providerAccountId

def requireKey : Except ChargeFailure PixKeyRecord :=
  match (services.findKey dto.pix_key_id).filter fun key => decide (key.accountId = accountId) with
  | none => .error (.baas .PIX_KEY_NOT_FOUND ("Chave " ++ dto.pix_key_id ++ " nao encontrada nesta conta.")
      none)
  | some key => .ok key

def capability : String :=
  if dto.kind = .STATIC then "pix.charge.static.create" else "pix.charge.dynamic.create"

/-- The key of the charge and what the provider answers for it. -/
def answered : Except ChargeFailure (PixKeyRecord × PixCharge) := do
  let providerAccountId ← requireAccount services accountId
  let key ← requireKey services accountId dto
  (services.require (capability dto)).mapError .thrown
  let input : CreateChargeInput := { pixKey := key.value, amount := dto.amount, txid := dto.txid }
  let created ←
    ((if dto.kind = .STATIC then services.createStatic else services.createDynamic)
      providerAccountId input).mapError
      .thrown
  .ok (key, created)

/-- The code names a key, and another one than the expected. -/
def namesAnotherKey (parsed : ParsedBrCode) (expectedKey : Text) : Bool :=
  !parsed.isDynamic && parsed.pixKey.any fun key => decide (key ≠ [] ∧ key ≠ expectedKey)

def assertEmvIsUsable (charge : PixCharge) (expectedKey : Text) : Except ChargeFailure Unit :=
  if charge.emvPayload = [] then
    .error (.baas .PROVIDER_REJECTED "O provedor devolveu a cobranca sem payload copia-e-cola." none)
  else
    match parseBrCode charge.emvPayload with
    | .error reason => .error (.baas .PROVIDER_REJECTED
        "O provedor devolveu um BR Code invalido." (some reason))
    | .ok parsed =>
      if namesAnotherKey parsed expectedKey then
        .error (.baas .PROVIDER_REJECTED
          "O BR Code devolvido aponta para uma chave diferente da solicitada." none)
      else .ok ()

def amountCentsOf (charge : PixCharge) : Except ChargeFailure (Option Int) :=
  match charge.amount with
  | none => .ok none
  | some amount =>
    match fromJSON amount with
    | none => .error .range
    | some cents => .ok (some cents)

/-- The record that is handed to the repository. -/
def create : Except ChargeFailure PixChargeRecord := do
  let (key, created) ← answered services accountId dto
  assertEmvIsUsable created key.value
  let amountCents ← amountCentsOf created
  .ok { accountId, pixKeyId := key.id, kind := dto.kind, txid := created.txid, status := created.status
        revision := created.revision.getD 0, amountCents
        amountIsChangeable := if dto.kind = .STATIC then false else dto.amount_is_changeable
        emvPayload := created.emvPayload, providerChargeId := created.txid, externalId := dto.external_id }

def valuesOf (nodes : List EmvNode) (id : Text) : List Text :=
  (nodes.filter fun node => decide (node.id = id)).map EmvNode.value

/-- What the merchant accounts of a code, which may be many, say in a field. -/
def accountFields (nodes : List EmvNode) (id : Text) : List Text :=
  (nodes.filter fun node => decide (node.id = EmvId.MERCHANT_ACCOUNT_INFORMATION_PIX)).flatMap fun node =>
    valuesOf (node.children.getD []) id

/-- The code pays a key and an amount, whichever of its fields a payer reads. -/
structure Pays (parsed : ParsedBrCode) (key : Text) (amountCents : Option Int) : Prop where
  url : parsed.url = none
  urls : ∀ url ∈ accountFields parsed.nodes EmvPixId.URL, url = []
  named : parsed.pixKey = some key
  keys : ∀ other ∈ accountFields parsed.nodes EmvPixId.KEY, other = key
  amount : ∀ cents, amountCents = some cents → ∃ text, parsed.amount = some text ∧
    fromDecimalString text = some cents
  amounts : ∀ cents, amountCents = some cents →
    ∀ other ∈ valuesOf parsed.nodes EmvId.TRANSACTION_AMOUNT, fromDecimalString other = some cents

def StaticPaysKey (stored : PixChargeRecord) : Prop :=
  stored.kind = .STATIC → ∃ key parsed, services.findKey dto.pix_key_id = some key ∧
    parseBrCode stored.emvPayload = .ok parsed ∧ Pays parsed key.value stored.amountCents

/-- The code has no URL, some key and only one, which is empty only when the
expected one is, and no other amount than the charge. -/
structure Unmistakable (parsed : ParsedBrCode) (expectedKey : Text) (amountCents : Option Int) : Prop where
  urls : ∀ url ∈ accountFields parsed.nodes EmvPixId.URL, url = []
  keyed : ∃ key, parsed.pixKey = some key ∧ (key = [] → expectedKey = []) ∧
    ∀ other ∈ accountFields parsed.nodes EmvPixId.KEY, other = key
  amount : amountCents ≠ none → parsed.amount ≠ none
  amounts : ∀ cents, amountCents = some cents →
    ∀ other ∈ valuesOf parsed.nodes EmvId.TRANSACTION_AMOUNT, fromDecimalString other = some cents

/-- Every answer to a static charge that the code does not refuse. -/
def Trustworthy : Prop :=
  dto.kind = .STATIC → ∀ key created parsed amountCents,
    answered services accountId dto = .ok (key, created) →
    parseBrCode created.emvPayload = .ok parsed → namesAnotherKey parsed key.value = false →
    amountCentsOf created = .ok amountCents → Unmistakable parsed key.value amountCents

variable {services} {accountId} {dto}

theorem mem_valuesOf {nodes : List EmvNode} {id value : Text} (h : valueOf nodes id = some value) :
    value ∈ valuesOf nodes id := by
  obtain ⟨node, hnode, rfl⟩ := Option.map_eq_some_iff.mp h
  have hid := List.find?_some hnode
  exact List.mem_map_of_mem (List.mem_filter.mpr ⟨List.mem_of_find?_eq_some hnode, hid⟩)

/-- The first merchant account is one of them. -/
theorem mem_accountFields {nodes : List EmvNode} {id value : Text}
    (h : valueOf (childrenOf nodes EmvId.MERCHANT_ACCOUNT_INFORMATION_PIX) id = some value) :
    value ∈ accountFields nodes id := by
  rw [childrenOf] at h
  cases hnode : findNode nodes EmvId.MERCHANT_ACCOUNT_INFORMATION_PIX with
  | none =>
    rw [hnode] at h
    exact absurd h (Option.some_ne_none value).symm
  | some node =>
    rw [hnode, Option.bind_some] at h
    have hid := List.find?_some hnode
    refine List.mem_flatMap.mpr ⟨node, ?_, mem_valuesOf h⟩
    exact List.mem_filter.mpr ⟨List.mem_of_find?_eq_some hnode, hid⟩

theorem url_none {nodes : List EmvNode} (h : ∀ url ∈ accountFields nodes EmvPixId.URL, url = []) :
    (readBrCode nodes).url = none ∧ (readBrCode nodes).isDynamic = false := by
  have hurl : (valueOf (childrenOf nodes EmvId.MERCHANT_ACCOUNT_INFORMATION_PIX) EmvPixId.URL).filter
    (· ≠ []) =
      none := by
    refine Option.filter_eq_none_iff.mpr fun url hsaid => ?_
    simpa using h url (mem_accountFields hsaid)
  exact ⟨by rw [readBrCode, hurl]; rfl, by rw [readBrCode, hurl]; rfl⟩

/-- A code that is not refused and cannot be read in two ways pays the key. -/
theorem Unmistakable.pays {nodes : List EmvNode} {expectedKey : Text} {amountCents : Option Int}
    (h : Unmistakable (readBrCode nodes) expectedKey amountCents)
    (haccepted : namesAnotherKey (readBrCode nodes) expectedKey = false) :
    Pays (readBrCode nodes) expectedKey amountCents := by
  have hurls : ∀ url ∈ accountFields nodes EmvPixId.URL, url = [] := h.urls
  obtain ⟨hurl, hstatic⟩ := url_none hurls
  obtain ⟨said, hsaid, hempty, hkeys⟩ := h.keyed
  have hsame : said = expectedKey := by
    by_cases hnil : said = []
    · rw [hnil, hempty hnil]
    · rw [namesAnotherKey, hstatic, hsaid] at haccepted
      by_contra hother
      exact absurd haccepted (by simp [hnil, hother])
  subst hsame
  refine ⟨hurl, h.urls, hsaid, hkeys, fun cents hcents => ?_, h.amounts⟩
  obtain ⟨text, htext⟩ := Option.ne_none_iff_exists'.mp
    (h.amount (by rw [hcents]; exact Option.some_ne_none cents))
  exact ⟨text, htext, h.amounts cents hcents text (mem_valuesOf htext)⟩

theorem Pays.unmistakable {parsed : ParsedBrCode} {key : Text} {amountCents : Option Int}
    (h : Pays parsed key amountCents) : Unmistakable parsed key amountCents := by
  refine ⟨h.urls, ⟨key, h.named, id, h.keys⟩, fun hsome hnone => ?_, h.amounts⟩
  obtain ⟨cents, hcents⟩ := Option.ne_none_iff_exists'.mp hsome
  obtain ⟨text, htext, -⟩ := h.amount cents hcents
  exact absurd (hnone.symm.trans htext) (Option.some_ne_none text).symm

theorem parseBrCode_nil {parsed : ParsedBrCode} : parseBrCode [] ≠ .ok parsed := by
  intro h
  have hcrc : verifyEmvCrc (trim []) = false := by decide
  rw [parseBrCode, if_pos hcrc] at h
  cases h

theorem assertEmvIsUsable_ok {charge : PixCharge} {expectedKey : Text} :
    assertEmvIsUsable charge expectedKey = .ok () ↔
      ∃ parsed, parseBrCode charge.emvPayload = .ok parsed ∧ namesAnotherKey parsed expectedKey = false := by
  rw [assertEmvIsUsable]
  by_cases hempty : charge.emvPayload = []
  · rw [if_pos hempty, hempty]
    exact ⟨fun h => (nomatch h), fun ⟨parsed, hparsed, _⟩ => absurd hparsed parseBrCode_nil⟩
  · rw [if_neg hempty]
    cases hparsed : parseBrCode charge.emvPayload with
    | error reason => exact ⟨fun h => (nomatch h), fun ⟨parsed, h, _⟩ => (nomatch h)⟩
    | ok parsed =>
      cases hother : namesAnotherKey parsed expectedKey with
      | false => exact ⟨fun _ => ⟨parsed, rfl, hother⟩, fun _ => by simp [hother]⟩
      | true =>
        refine ⟨fun h => ?_, fun ⟨other, hsame, haccepted⟩ => ?_⟩
        · simp [hother] at h
        · rw [← Except.ok.inj hsame, hother] at haccepted
          exact absurd haccepted Bool.true_eq_false.mp

/-- What a charge that is handed to the repository went through. -/
theorem create_ok {stored : PixChargeRecord} (h : create services accountId dto = .ok stored) :
    ∃ key created parsed, answered services accountId dto = .ok (key, created) ∧
      parseBrCode created.emvPayload = .ok parsed ∧ namesAnotherKey parsed key.value = false ∧
      amountCentsOf created = .ok stored.amountCents ∧ stored.kind = dto.kind ∧
      stored.emvPayload = created.emvPayload := by
  obtain ⟨⟨key, created⟩, hanswered, h⟩ := bind_eq_ok.mp h
  obtain ⟨_, husable, h⟩ := bind_eq_ok.mp h
  obtain ⟨amountCents, hamount, h⟩ := bind_eq_ok.mp h
  obtain ⟨parsed, hparsed, haccepted⟩ := assertEmvIsUsable_ok.mp husable
  have hstored := (Except.ok.inj h).symm
  subst hstored
  exact ⟨key, created, parsed, hanswered, hparsed, haccepted, hamount, rfl, rfl⟩

theorem create_of_answered {key : PixKeyRecord} {created : PixCharge} {parsed : ParsedBrCode}
    {amountCents : Option Int} (hanswered : answered services accountId dto = .ok (key, created))
    (hparsed : parseBrCode created.emvPayload = .ok parsed)
    (haccepted : namesAnotherKey parsed key.value = false)
    (hamount : amountCentsOf created = .ok amountCents) :
    ∃ stored, create services accountId dto = .ok stored ∧ stored.kind = dto.kind ∧
      stored.emvPayload = created.emvPayload ∧ stored.amountCents = amountCents := by
  have husable := assertEmvIsUsable_ok.mpr ⟨parsed, hparsed, haccepted⟩
  rw [create, hanswered, ok_bind]
  simp only [husable, hamount, ok_bind]
  exact ⟨_, rfl, rfl, rfl, rfl⟩

theorem answered_key {key : PixKeyRecord} {created : PixCharge}
    (h : answered services accountId dto = .ok (key, created)) :
    services.findKey dto.pix_key_id = some key := by
  obtain ⟨providerAccountId, -, h⟩ := bind_eq_ok.mp h
  obtain ⟨found, hfound, h⟩ := bind_eq_ok.mp h
  obtain ⟨_, -, h⟩ := bind_eq_ok.mp h
  obtain ⟨_, -, h⟩ := bind_eq_ok.mp h
  have hsame := (Prod.mk.inj (Except.ok.inj h)).1
  subst hsame
  rw [requireKey] at hfound
  cases hkey : (services.findKey dto.pix_key_id).filter fun key => decide (key.accountId = accountId) with
  | none =>
    rw [hkey] at hfound
    exact nomatch hfound
  | some other =>
    rw [hkey] at hfound
    have hsame := Except.ok.inj hfound
    subst hsame
    exact (Option.filter_eq_some_iff.mp hkey).1

theorem create_pays_iff :
    (∀ stored, create services accountId dto = .ok stored → StaticPaysKey services dto stored) ↔
      Trustworthy services accountId dto := by
  constructor
  · intro h hkind key created parsed amountCents hanswered hparsed haccepted hamount
    obtain ⟨stored, hstored, hstoredkind, hpayload, hcents⟩ :=
      create_of_answered hanswered hparsed haccepted hamount
    obtain ⟨other, code, hkey, hcode, hpays⟩ := h stored hstored (hstoredkind.trans hkind)
    rw [hpayload, hparsed] at hcode
    rw [answered_key hanswered] at hkey
    rw [← Except.ok.inj hcode, ← Option.some.inj hkey, hcents] at hpays
    exact hpays.unmistakable
  · intro h stored hstored hstatic
    obtain ⟨key, created, parsed, hanswered, hparsed, haccepted, hamount, hkind, hpayload⟩ :=
      create_ok hstored
    have hplain := h (hkind ▸ hstatic) key created parsed stored.amountCents hanswered
      hparsed haccepted hamount
    refine ⟨key, parsed, answered_key hanswered, by rw [hpayload, hparsed], ?_⟩
    obtain ⟨nodes, -, rfl⟩ := parseBrCode_ok hparsed
    exact hplain.pays haccepted

/-- A code that points to a URL and names no key. -/
def urlCode : Text := units "26270014br.gov.bcb.pix2505x.y/z5406150.75630496B9"

def urlServices : Services where
  findAccount _ := some { id := "acc_1", providerAccountId := some "p1" }
  findKey _ := some { id := "key_1", accountId := "acc_1", value := units "loja@x.com" }
  require _ := .ok ()
  createStatic _ _ :=
    .ok { txid := "t1", status := .ACTIVE, revision := none, amount := none, emvPayload := urlCode }
  createDynamic _ _ := .error (.failure "none")

def staticDto : CreateChargeDto :=
  { pix_key_id := "key_1", kind := .STATIC, amount := none, txid := none, amount_is_changeable := false
    external_id := none }

theorem parse_urlCode : ∃ parsed, parseBrCode urlCode = .ok parsed ∧ parsed.isDynamic = true ∧
    parsed.url = some (units "https://x.y/z") := by
  have hread : (parseBrCode urlCode).toOption.map (fun parsed => (parsed.isDynamic, parsed.url)) =
      some (true, some (units "https://x.y/z")) := by decide +kernel
  cases hparsed : parseBrCode urlCode with
  | error error =>
    rw [hparsed] at hread
    exact absurd hread (Option.some_ne_none _).symm
  | ok parsed =>
    rw [hparsed] at hread
    obtain ⟨hdynamic, hurl⟩ := Prod.mk.inj (Option.some.inj hread)
    exact ⟨parsed, rfl, hdynamic, hurl⟩

theorem static_charge_with_url : ∃ stored, create urlServices "acc_1" staticDto = .ok stored ∧
    stored.kind = .STATIC ∧ stored.emvPayload = urlCode ∧ ¬ StaticPaysKey urlServices staticDto stored := by
  obtain ⟨parsed, hparsed, hdynamic, hurl⟩ := parse_urlCode
  have haccepted : namesAnotherKey parsed (units "loja@x.com") = false := by
    rw [namesAnotherKey, hdynamic]; rfl
  have hanswered : answered urlServices "acc_1" staticDto = .ok
      ({ id := "key_1", accountId := "acc_1", value := units "loja@x.com" },
        { txid := "t1", status := .ACTIVE, revision := none, amount := none, emvPayload := urlCode }) := rfl
  obtain ⟨stored, hstored, hkind, hpayload, -⟩ := create_of_answered hanswered hparsed haccepted rfl
  refine ⟨stored, hstored, hkind, hpayload, fun h => ?_⟩
  obtain ⟨_, code, -, hcode, hpays⟩ := h hkind
  rw [hpayload, hparsed] at hcode
  rw [← Except.ok.inj hcode] at hpays
  exact absurd (hurl.symm.trans hpays.url) (Option.some_ne_none _)

end BaasConnector.Pix.Charges
