import Mathlib.Data.List.Forall2

namespace BaasConnector.Lib.Results

variable {E A B : Type}

@[simp] theorem ok_bind (value : A) (next : A → Except E B) : (Except.ok value >>= next) = next value := rfl

theorem bind_eq_ok {result : Except E A} {next : A → Except E B} {last : B} :
    (result >>= next) = .ok last ↔ ∃ value, result = .ok value ∧ next value = .ok last := by
  cases result with
  | error error => exact ⟨fun h => (nomatch h), fun ⟨_, h, _⟩ => (nomatch h)⟩
  | ok value => exact ⟨fun h => ⟨value, rfl, h⟩, fun ⟨_, hvalue, h⟩ => Except.ok.inj hvalue ▸ h⟩

theorem map_eq_ok {result : Except E A} {f : A → B} {last : B} :
    result.map f = .ok last ↔ ∃ value, result = .ok value ∧ f value = last := by
  cases result with
  | error error => exact ⟨fun h => (nomatch h), fun ⟨_, h, _⟩ => (nomatch h)⟩
  | ok value =>
    exact ⟨fun h => ⟨value, rfl, Except.ok.inj h⟩, fun ⟨_, hvalue, h⟩ => Except.ok.inj hvalue ▸ h ▸ rfl⟩

theorem toOption_eq_some {result : Except E A} {value : A} :
    result.toOption = some value ↔ result = .ok value := by
  cases result with
  | error error => exact ⟨fun h => (nomatch h), fun h => (nomatch h)⟩
  | ok found =>
    exact ⟨fun h => congrArg Except.ok (Option.some.inj h), fun h => congrArg some (Except.ok.inj h)⟩

theorem toOption_eq_none {result : Except E A} : result.toOption = none ↔ ∃ error, result = .error error := by
  cases result with
  | error error => exact ⟨fun _ => ⟨error, rfl⟩, fun _ => rfl⟩
  | ok found => exact ⟨fun h => (nomatch h), fun ⟨_, h⟩ => (nomatch h)⟩

theorem mapM_eq_ok {f : A → Except E B} {values : List A} {results : List B} :
    values.mapM f = .ok results ↔ List.Forall₂ (fun value result => f value = .ok result) values results := by
  induction values generalizing results with
  | nil => exact ⟨fun h => Except.ok.inj h ▸ .nil, fun h => by cases h; rfl⟩
  | cons value values ih =>
    rw [List.mapM_cons, bind_eq_ok, List.forall₂_cons_left_iff]
    constructor
    · rintro ⟨result, hresult, hrest⟩
      obtain ⟨rest, hrest, h⟩ := bind_eq_ok.mp hrest
      exact ⟨result, rest, hresult, ih.mp hrest, (Except.ok.inj h).symm⟩
    · rintro ⟨result, rest, hresult, hrest, rfl⟩
      exact ⟨result, hresult, bind_eq_ok.mpr ⟨rest, ih.mpr hrest, rfl⟩⟩

end BaasConnector.Lib.Results
