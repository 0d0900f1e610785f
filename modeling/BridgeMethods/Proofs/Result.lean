import Mathlib.Data.List.Forall2

/-!
# Results of computations that may fail

A computation that is put together from others succeeds if and only if all of them do, and its error
is that of one of them.  The statements here take such a success or such an error apart.
-/

namespace Except

universe u v w

variable {ε : Type u} {α β : Type v}

theorem bind_eq_ok_iff {result : Except ε α} {next : α → Except ε β} {b : β} :
    result >>= next = .ok b ↔ ∃ a, result = .ok a ∧ next a = .ok b := by
  cases result with
  | error e => exact ⟨nofun, fun ⟨_, h, _⟩ => nomatch h⟩
  | ok a => exact ⟨fun h => ⟨a, rfl, h⟩, fun ⟨_, rfl, h⟩ => h⟩

theorem bind_eq_error_iff {result : Except ε α} {next : α → Except ε β} {e : ε} :
    result >>= next = .error e ↔
      result = .error e ∨ ∃ a, result = .ok a ∧ next a = .error e := by
  cases result with
  | error e' =>
      rw [or_iff_left (fun ⟨_, h, _⟩ => nomatch h)]
      exact ⟨fun h => congrArg Except.error (Except.error.inj h),
        fun h => congrArg Except.error (Except.error.inj h)⟩
  | ok a => exact ⟨fun h => .inr ⟨a, rfl, h⟩, fun h => h.elim nofun fun ⟨_, rfl, h⟩ => h⟩

theorem isOk_iff {result : Except ε α} : result.isOk = true ↔ ∃ a, result = .ok a := by
  cases result with
  | error e => exact ⟨nofun, nofun⟩
  | ok a => exact ⟨fun _ => ⟨a, rfl⟩, fun _ => rfl⟩

theorem toOption_eq_some_iff {result : Except ε α} {a : α} :
    result.toOption = some a ↔ result = .ok a := by
  cases result <;> simp [Except.toOption]

theorem toOption_eq_none_iff {result : Except ε α} :
    result.toOption = none ↔ ∀ a, result ≠ .ok a := by
  cases result <;> simp [Except.toOption]

theorem mapError_eq_ok_iff {ε' : Type w} {result : Except ε α} {f : ε → ε'} {a : α} :
    result.mapError f = .ok a ↔ result = .ok a := by
  cases result <;> simp [Except.mapError]

theorem mapError_eq_error_iff {ε' : Type w} {result : Except ε α} {f : ε → ε'} {e : ε'} :
    result.mapError f = .error e ↔ ∃ cause, result = .error cause ∧ f cause = e := by
  cases result <;> simp [Except.mapError]

/-- A list is mapped successfully exactly if each of its members is. -/
theorem mapM_eq_ok_iff {α : Type w} {f : α → Except ε β} {relation : α → β → Prop}
    (each : ∀ a b, f a = .ok b ↔ relation a b) {as : List α} {bs : List β} :
    as.mapM f = .ok bs ↔ List.Forall₂ relation as bs := by
  induction as generalizing bs with
  | nil =>
      rw [List.mapM_nil, List.forall₂_nil_left_iff]
      exact ⟨fun h => by cases h; rfl, fun h => by rw [h]; rfl⟩
  | cons a as ih =>
      rw [List.mapM_cons, bind_eq_ok_iff, List.forall₂_cons_left_iff]
      constructor
      · rintro ⟨b, first, h⟩
        rcases bind_eq_ok_iff.mp h with ⟨rest, restMapped, h⟩
        cases h
        exact ⟨b, rest, (each a b).mp first, ih.mp restMapped, rfl⟩
      · rintro ⟨b, rest, first, restMapped, rfl⟩
        exact ⟨b, (each a b).mpr first, bind_eq_ok_iff.mpr ⟨rest, ih.mpr restMapped, rfl⟩⟩

/-- If a list cannot be mapped, the error is that of one of its members. -/
theorem exists_of_mapM_eq_error {α : Type w} {f : α → Except ε β} {as : List α} {e : ε}
    (failed : as.mapM f = .error e) : ∃ a ∈ as, f a = .error e := by
  induction as with
  | nil => rw [List.mapM_nil] at failed; contradiction
  | cons a as ih =>
      rw [List.mapM_cons, bind_eq_error_iff] at failed
      rcases failed with first | ⟨b, _, failed⟩
      · exact ⟨a, List.mem_cons_self, first⟩
      · rcases bind_eq_error_iff.mp failed with rest | ⟨_, _, failed⟩
        · rcases ih rest with ⟨other, member, failed⟩
          exact ⟨other, List.mem_cons_of_mem a member, failed⟩
        · contradiction

/-- A fold that fails does so at a member of the list, and it succeeds up to there. -/
theorem exists_of_foldlM_eq_error {α : Type w} {f : β → α → Except ε β} {as : List α} {b : β} {e : ε}
    (failed : as.foldlM f b = .error e) :
    ∃ front a back c, as = front ++ a :: back ∧ front.foldlM f b = .ok c ∧ f c a = .error e := by
  induction as generalizing b with
  | nil => rw [List.foldlM_nil] at failed; contradiction
  | cons a as ih =>
      rw [List.foldlM_cons, bind_eq_error_iff] at failed
      rcases failed with here | ⟨c, first, failed⟩
      · exact ⟨[], a, as, b, rfl, rfl, here⟩
      · obtain ⟨front, other, back, d, rfl, run, here⟩ := ih failed
        refine ⟨a :: front, other, back, d, rfl, ?_, here⟩
        rw [List.foldlM_cons, first]
        exact run

theorem foldlM_eq_error {α : Type w} {f : β → α → Except ε β} {front : List α} {a : α} {b c : β}
    {e : ε} (run : front.foldlM f b = .ok c) (here : f c a = .error e) (back : List α) :
    (front ++ a :: back).foldlM f b = .error e := by
  rw [List.foldlM_append, run]
  exact bind_eq_error_iff.mpr (.inr ⟨c, rfl, bind_eq_error_iff.mpr (.inl here)⟩)

end Except
