import BaasConnector.Lib.Numerals
import BaasConnector.Lib.Separators
import BaasConnector.Taxonomy.Errors
import Mathlib

namespace BaasConnector.Auth.Allowlist

open BaasConnector.Lib.Decimals BaasConnector.Lib.Separators BaasConnector.Taxonomy.Errors

/-- An entry without a slash is an address. Of an entry with one, the beginning
of the client's text is compared with the first three parts. -/
def entryAllows (clientIp entry : String) : Bool :=
  if !entry.toList.contains '/' then entry == clientIp
  else
    let network := (entry.toList.splitOn '/').headD []
    if network.isEmpty then false
    else (['.'].intercalate ((network.splitOn '.').take 3)).isPrefixOf clientIp.toList

def ipAllowed (clientIp : String) (allowlist : List String) : Bool := allowlist.any (entryAllows clientIp)

/-- The step of the authentication between the environment of the key and its answer. -/
def assertIpAllowed (ipAllowlist : List String) (clientIp : Option String) : Except Thrown Unit :=
  let ip := clientIp.getD ""
  if 0 < ipAllowlist.length ∧ ip ≠ "" ∧ ipAllowed ip ipAllowlist = false then
    .error (.baas ⟨.AUTHORIZATION_DENIED, "Origem nao permitida para esta chave de API.", []⟩)
  else .ok ()

structure Ipv4 where
  w : Fin 256
  x : Fin 256
  y : Fin 256
  z : Fin 256
deriving DecidableEq, Repr

namespace Ipv4

def text (ip : Ipv4) : String :=
  toString ip.w.val ++ "." ++ toString ip.x.val ++ "." ++ toString ip.y.val ++ "." ++ toString ip.z.val

/-- The address as a number of 32 bits. -/
def value (ip : Ipv4) : Nat := ((ip.w.val * 256 + ip.x.val) * 256 + ip.y.val) * 256 + ip.z.val

/-- The two addresses agree in their leading bits. -/
structure Inside (bits : Nat) (ip network : Ipv4) : Prop where
  leading : ip.value / 2 ^ (32 - bits) = network.value / 2 ^ (32 - bits)

/-- Two octets are the network's, and the third one's decimal goes on after the network's. -/
def RunsOn (ip network : Ipv4) : Prop :=
  ip.w = network.w ∧ ip.x = network.x ∧ 0 < network.y.val ∧
    (ip.y.val / 10 = network.y.val ∨ ip.y.val / 100 = network.y.val)

end Ipv4

inductive AllowlistEntry
  | address (ip : Ipv4)
  | network (ip : Ipv4) (bits : Fin 33)
deriving DecidableEq, Repr

def AllowlistEntry.text : AllowlistEntry → String
  | .address ip => ip.text
  | .network ip bits => ip.text ++ "/" ++ toString bits.val

section Digits

/-- The decimal of an octet begins another one's when dropping digits leads there. -/
theorem octet_prefix {m n : Nat} (hn : n < 256) :
    Nat.toDigits 10 m <+: Nat.toDigits 10 n ↔ n = m ∨ 0 < m ∧ (n / 10 = m ∨ n / 100 = m) := by
  by_cases h10 : n < 10
  · rw [digits_prefix_digit h10]
    omega
  · rw [digits_prefix_step (by omega)]
    by_cases h100 : n < 100
    · rw [digits_prefix_digit (by omega)]
      omega
    · rw [digits_prefix_step (by omega), digits_prefix_digit (by omega)]
      omega

end Digits

namespace Ipv4

theorem text_toList (ip : Ipv4) :
    ip.text.toList = Nat.toDigits 10 ip.w ++ '.' :: (Nat.toDigits 10 ip.x ++ '.' ::
      (Nat.toDigits 10 ip.y ++ '.' :: Nat.toDigits 10 ip.z)) := by
  simp [text, Nat.toString_eq_repr, Nat.toList_repr]

theorem text_without_slash (ip : Ipv4) : '/' ∉ ip.text.toList := by
  rw [text_toList]
  simp [digits_without]

theorem text_inj {a b : Ipv4} : a.text = b.text ↔ a = b := by
  refine ⟨fun h => ?_, fun h => h ▸ rfl⟩
  have hdot : ∀ n, '.' ∉ Nat.toDigits 10 n := digits_without rfl
  have hlist := congrArg String.toList h
  rw [text_toList, text_toList] at hlist
  obtain ⟨hw, hlist⟩ := split_at_separator (hdot _) (hdot _) hlist
  obtain ⟨hx, hlist⟩ := split_at_separator (hdot _) (hdot _) hlist
  obtain ⟨hy, hz⟩ := split_at_separator (hdot _) (hdot _) hlist
  obtain ⟨aw, ax, ay, az⟩ := a
  obtain ⟨bw, bx, By, bz⟩ := b
  simp only [digits_inj, Fin.val_inj] at hw hx hy hz
  rw [hw, hx, hy, hz]

theorem value_div (ip : Ipv4) : ip.value / 2 ^ (32 - 24) = (ip.w.val * 256 + ip.x.val) * 256 + ip.y.val := by
  have hz := ip.z.isLt
  have h : 2 ^ (32 - 24) = 256 := by norm_num
  rw [value, h]
  omega

theorem base_256_inj {a b y y' : Nat} (hy : y < 256) (hy' : y' < 256) (h : a * 256 + y = b * 256 + y') :
    a = b ∧ y = y' := by
  omega

/-- The network of 24 bits is told by the first three octets. -/
theorem inside_24_iff (ip network : Ipv4) :
    Inside 24 ip network ↔ ip.w = network.w ∧ ip.x = network.x ∧ ip.y = network.y := by
  constructor
  · intro h
    have hvalue := h.leading
    rw [value_div, value_div] at hvalue
    obtain ⟨hpair, hy⟩ := base_256_inj ip.y.isLt network.y.isLt hvalue
    obtain ⟨hw, hx⟩ := base_256_inj ip.x.isLt network.x.isLt hpair
    exact ⟨Fin.ext hw, Fin.ext hx, Fin.ext hy⟩
  · rintro ⟨hw, hx, hy⟩
    refine ⟨?_⟩
    rw [value_div, value_div, hw, hx, hy]

theorem text_splitOn (ip : Ipv4) :
    ip.text.toList.splitOn '.' = [Nat.toDigits 10 ip.w, Nat.toDigits 10 ip.x, Nat.toDigits 10 ip.y,
      Nat.toDigits 10 ip.z] := by
  have hdot : ∀ n, '.' ∉ Nat.toDigits 10 n := digits_without rfl
  rw [text_toList, List.splitOn_append_cons_self_of_not_mem (hdot _),
    List.splitOn_append_cons_self_of_not_mem (hdot _), List.splitOn_append_cons_self_of_not_mem (hdot _),
    List.splitOn_eq_singleton (hdot _)]

end Ipv4

theorem entryAllows_address (client ip : Ipv4) :
    entryAllows client.text (AllowlistEntry.address ip).text = true ↔ client = ip := by
  have hslash : ip.text.toList.contains '/' = false := by simpa using ip.text_without_slash
  rw [AllowlistEntry.text, entryAllows, hslash, Bool.not_false, if_pos rfl, beq_iff_eq, Ipv4.text_inj]
  exact eq_comm

theorem entryAllows_network (client ip : Ipv4) (bits : Fin 33) :
    entryAllows client.text (AllowlistEntry.network ip bits).text = true ↔
      client.Inside 24 ip ∨ client.RunsOn ip := by
  have hlist : (AllowlistEntry.network ip bits).text.toList = ip.text.toList ++
    '/' :: (toString bits.val).toList := by
    simp [AllowlistEntry.text]
  have hslash : (ip.text.toList ++ '/' :: (toString bits.val).toList).contains '/' = true := by simp
  have hfilled : ip.text.toList.isEmpty = false := by
    rw [Ipv4.text_toList]
    simp
  have hdot : ∀ n, '.' ∉ Nat.toDigits 10 n := digits_without rfl
  rw [entryAllows, hlist, hslash, Bool.not_true, if_neg Bool.false_ne_true,
    List.splitOn_append_cons_self_of_not_mem ip.text_without_slash]
  simp only [List.headD_cons, hfilled, Bool.false_eq_true, if_false, Ipv4.text_splitOn, List.take_succ_cons,
    List.take_zero, List.isPrefixOf_iff_prefix]
  rw [List.intercalate_cons_cons, List.intercalate_cons_cons, List.intercalate_singleton, Ipv4.text_toList,
    List.append_assoc, List.append_assoc, List.singleton_append, List.singleton_append,
    prefix_at_separator (hdot _) (hdot _), prefix_at_separator (hdot _) (hdot _),
    prefix_before_separator (hdot _), octet_prefix client.y.isLt, digits_inj, digits_inj, Ipv4.inside_24_iff]
  rw [Fin.val_inj, Fin.val_inj, Fin.val_inj, Ipv4.RunsOn, ← and_or_left, ← and_or_left, eq_comm,
    eq_comm (a := ip.x)]

theorem text_ne_empty (ip : Ipv4) : ip.text ≠ "" := by
  intro h
  have hlist := congrArg String.toList h
  rw [Ipv4.text_toList] at hlist
  simp at hlist

/-- The address is listed, or the first 24 bits of a listed network are its own. -/
def Admitted (allowlist : List AllowlistEntry) (client : Ipv4) : Prop :=
  .address client ∈ allowlist ∨ ∃ ip bits, .network ip bits ∈ allowlist ∧ client.Inside 24 ip

def RunsOnSome (allowlist : List AllowlistEntry) (client : Ipv4) : Prop :=
  ∃ ip bits, .network ip bits ∈ allowlist ∧ client.RunsOn ip

theorem ipAllowed_iff (allowlist : List AllowlistEntry) (client : Ipv4) :
    ipAllowed client.text (allowlist.map AllowlistEntry.text) = true ↔
      Admitted allowlist client ∨ RunsOnSome allowlist client := by
  rw [ipAllowed, List.any_map, List.any_eq_true]
  simp only [Function.comp_apply]
  constructor
  · intro h
    obtain ⟨entry, hentry, hallows⟩ := h
    cases entry with
    | address ip =>
      have hip : client = ip := (entryAllows_address client ip).mp hallows
      exact .inl (.inl (hip ▸ hentry))
    | network ip bits =>
      obtain hinside | hruns := (entryAllows_network client ip bits).mp hallows
      · exact .inl (.inr ⟨ip, bits, hentry, hinside⟩)
      · exact .inr ⟨ip, bits, hentry, hruns⟩
  · rintro ((hlisted | ⟨ip, bits, hentry, hinside⟩) | ⟨ip, bits, hentry, hruns⟩)
    · exact ⟨_, hlisted, (entryAllows_address client client).mpr rfl⟩
    · exact ⟨_, hentry, (entryAllows_network client ip bits).mpr (.inl hinside)⟩
    · exact ⟨_, hentry, (entryAllows_network client ip bits).mpr (.inr hruns)⟩

theorem assertIpAllowed_iff (allowlist : List AllowlistEntry) (client : Ipv4) :
    assertIpAllowed (allowlist.map AllowlistEntry.text) (some client.text) = .ok () ↔
      allowlist = [] ∨ Admitted allowlist client ∨ RunsOnSome allowlist client := by
  rw [← ipAllowed_iff, assertIpAllowed]
  simp only [Option.getD_some, List.length_map, List.length_pos_iff]
  split
  · next h => exact iff_of_false (by simp) (by simp [h.1, h.2.2])
  · next h =>
    refine iff_of_true rfl ?_
    by_contra hnot
    exact h ⟨fun he => hnot (.inl he), text_ne_empty client, Bool.eq_false_iff.mpr fun ha => hnot (.inr ha)⟩

/-- A network of any length stands for the block of 24 bits around its address:
who is listed or in a block passes, and nobody else does but an address whose
third octet goes on after the network's. -/
theorem allowlist_by_blocks (allowlist : List AllowlistEntry) (client : Ipv4) :
    (allowlist = [] ∨ Admitted allowlist client →
      assertIpAllowed (allowlist.map AllowlistEntry.text) (some client.text) = .ok ()) ∧
    (¬ RunsOnSome allowlist client →
      (assertIpAllowed (allowlist.map AllowlistEntry.text) (some client.text) = .ok () ↔
        allowlist = [] ∨ Admitted allowlist client)) := by
  rw [assertIpAllowed_iff]
  constructor
  · rintro (h | h)
    · exact .inl h
    · exact .inr (.inl h)
  · intro hruns
    rw [or_iff_left hruns]

/-- 10.1.2.3 lies in 10.0.0.0/8 and is turned away. -/
theorem wide_network_turned_away :
    Ipv4.Inside 8 ⟨10, 1, 2, 3⟩ ⟨10, 0, 0, 0⟩ ∧
    assertIpAllowed ([.network ⟨10, 0, 0, 0⟩ 8].map AllowlistEntry.text)
    (some (Ipv4.text ⟨10, 1, 2, 3⟩)) ≠ .ok () := by
  refine ⟨⟨by decide⟩, ?_⟩
  rw [Ne, assertIpAllowed_iff]
  rintro (h | (h | ⟨ip, bits, h, hinside⟩) | ⟨ip, bits, h, hruns⟩)
  · cases h
  · simp at h
  · simp only [List.mem_singleton, AllowlistEntry.network.injEq] at h
    rw [h.1, Ipv4.inside_24_iff] at hinside
    exact absurd hinside (by decide)
  · simp only [List.mem_singleton, AllowlistEntry.network.injEq] at h
    rw [h.1] at hruns
    exact absurd hruns.2.1 (by decide)

end BaasConnector.Auth.Allowlist
