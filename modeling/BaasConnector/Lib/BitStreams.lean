import Mathlib.Data.List.Basic

namespace BaasConnector.Lib.Registers

variable {S U : Type} {step : S → U → S} {Held : S → Prop}

theorem foldl_held (hstep : ∀ s u, Held s → Held (step s u)) (us : List U) {s : S} (hs : Held s) :
    Held (us.foldl step s) := by
  induction us generalizing s with
  | nil => exact hs
  | cons u us ih => exact ih (hstep s u hs)

/-- A register that loses nothing at a step loses nothing over a text. -/
theorem foldl_injective (hstep : ∀ s u, Held s → Held (step s u))
    (hinj : ∀ s t u, Held s → Held t → step s u = step t u → s = t) (us : List U) {s t : S} (hs : Held s)
    (ht : Held t) (h : us.foldl step s = us.foldl step t) : s = t := by
  induction us generalizing s t with
  | nil => exact h
  | cons u us ih => exact hinj s t u hs ht (ih (hstep s u hs) (hstep t u ht) h)

/-- It tells two texts that differ at one place apart exactly when it tells the
two units there apart. -/
theorem foldl_single_iff (hstep : ∀ s u, Held s → Held (step s u))
    (hinj : ∀ s t u, Held s → Held t → step s u = step t u → s = t) (before after : List U) (u v : U) {s : S}
    (hs : Held s) :
    (before ++ u :: after).foldl step s = (before ++ v :: after).foldl step s ↔
      step (before.foldl step s) u = step (before.foldl step s) v := by
  have hbefore := foldl_held hstep before hs
  rw [List.foldl_append, List.foldl_append, List.foldl_cons, List.foldl_cons]
  constructor
  · exact foldl_injective hstep hinj after (hstep _ u hbefore) (hstep _ v hbefore)
  · intro h
    rw [h]

end BaasConnector.Lib.Registers

namespace BaasConnector.Lib.BitStreams

variable {w w' : Nat}

/-- The low bits of a word, the highest one first. -/
def bits (count : Nat) (word : BitVec w) : List Bool := (List.range count).reverse.map word.getLsbD

/-- The bits of words of one size in a row. -/
def stream (count : Nat) (words : List (BitVec w)) : List Bool := words.flatMap (bits count)

theorem bits_length (count : Nat) (word : BitVec w) : (bits count word).length = count := by
  simp [bits]

theorem bits_congr {count : Nat} {word : BitVec w} {other : BitVec w'}
    (h : ∀ i < count, word.getLsbD i = other.getLsbD i) : bits count word = bits count other := by
  apply List.map_congr_left
  intro i hi
  exact h i (List.mem_range.mp (List.mem_reverse.mp hi))

theorem getLsbD_of_bits {count : Nat} {word : BitVec w} {other : BitVec w'}
    (h : bits count word = bits count other)
    (i : Nat) (hi : i < count) : word.getLsbD i = other.getLsbD i :=
  List.map_eq_map_iff.mp h i (List.mem_reverse.mpr (List.mem_range.mpr hi))

/-- The high bits, then the low ones. -/
theorem bits_add (high low : Nat) (word : BitVec w) :
    bits (high + low) word = bits high (word >>> low) ++ bits low word := by
  have hrange : List.range (high + low) = List.range low ++ (List.range high).map (low + ·) := by
    rw [Nat.add_comm, List.range_add]
  rw [bits, bits, bits, hrange, List.reverse_append, List.map_append, ← List.map_reverse, List.map_map]
  congr 1
  apply List.map_congr_left
  intro i _
  exact (BitVec.getLsbD_ushiftRight word low i).symm

theorem bits_zero {count : Nat} {word : BitVec w} (h : ∀ i < count, word.getLsbD i = false) :
    bits count word = List.replicate count false := by
  rw [List.eq_replicate_iff]
  refine ⟨bits_length count word, fun bit hbit => ?_⟩
  obtain ⟨i, hi, rfl⟩ := List.mem_map.mp hbit
  exact h i (List.mem_range.mp (List.mem_reverse.mp hi))

theorem stream_append (count : Nat) (words others : List (BitVec w)) :
    stream count (words ++ others) = stream count words ++ stream count others :=
  List.flatMap_append

theorem stream_singleton (count : Nat) (word : BitVec w) : stream count [word] = bits count word := by
  rw [stream, List.flatMap_singleton]

theorem stream_length (count : Nat) (words : List (BitVec w)) :
    (stream count words).length = count * words.length := by
  induction words with
  | nil => rfl
  | cons word words ih =>
    rw [stream, List.flatMap_cons, List.length_append, bits_length, ← stream, ih,
      List.length_cons, Nat.mul_succ,
      Nat.add_comm]

/-- Words that are known by their bits are known by the row of them. -/
theorem stream_injective {count : Nat} (hcount : 0 < count) {words others : List (BitVec w)}
    (hwords : ∀ word ∈ words, ∀ i, count ≤ i → word.getLsbD i = false)
    (hothers : ∀ word ∈ others, ∀ i, count ≤ i → word.getLsbD i = false)
    (h : stream count words = stream count others) : words = others := by
  induction words generalizing others with
  | nil =>
    have hlength := congrArg List.length h
    rw [stream_length, stream_length, List.length_nil, Nat.mul_zero, eq_comm, Nat.mul_eq_zero] at hlength
    exact (List.eq_nil_of_length_eq_zero (hlength.resolve_left (by omega))).symm
  | cons word words ih =>
    cases others with
    | nil =>
      have hlength := congrArg List.length h
      rw [stream_length, stream_length, List.length_nil, Nat.mul_zero, Nat.mul_eq_zero] at hlength
      exact absurd (hlength.resolve_left (by omega)) (Nat.succ_ne_zero _)
    | cons other others =>
      rw [stream, stream, List.flatMap_cons, List.flatMap_cons] at h
      obtain ⟨hhead, htail⟩ := List.append_inj h (by rw [bits_length, bits_length])
      have hsame : word = other := by
        apply BitVec.eq_of_getLsbD_eq
        intro i _
        by_cases hi : i < count
        · exact getLsbD_of_bits hhead i hi
        · rw [hwords word List.mem_cons_self i (by omega), hothers other List.mem_cons_self i (by omega)]
      rw [hsame, ih (fun word hmem => hwords word (List.mem_cons_of_mem _ hmem))
        (fun word hmem => hothers word (List.mem_cons_of_mem _ hmem)) htail]

end BaasConnector.Lib.BitStreams
