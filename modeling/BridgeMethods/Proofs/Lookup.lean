import Mathlib.Data.List.Forall2
import Mathlib.Data.List.Nodup
import Mathlib.Tactic.SplitIfs

/-!
# Looking up by key, and lists that correspond

Classes are found by name.  Where the names in a list are distinct, the first entry of a name is the
only one, and entries of corresponding lists that have one name correspond.
-/

namespace List

universe u v w

variable {α : Type u} {β : Type v} {κ : Type w}

/-- Among entries with distinct keys, the one with a given key is found. -/
theorem find?_key_eq_some_iff [DecidableEq κ] {key : α → κ} {entries : List α}
    (distinct : (entries.map key).Nodup) {k : κ} {entry : α} :
    entries.find? (key · = k) = some entry ↔ entry ∈ entries ∧ key entry = k := by
  constructor
  · intro found
    exact ⟨mem_of_find?_eq_some found, by simpa using find?_some found⟩
  · rintro ⟨member, rfl⟩
    cases found : entries.find? (key · = key entry) with
    | none => simpa using find?_eq_none.mp found entry member
    | some other =>
        have sameKey : key other = key entry := by simpa using find?_some found
        rw [inj_on_of_nodup_map distinct (mem_of_find?_eq_some found) member sameKey]

/-- Among entries with distinct keys, no other entry has the key of a given one. -/
theorem filter_key_eq_singleton [DecidableEq κ] {key : α → κ} {entries : List α}
    (distinct : (entries.map key).Nodup) {entry : α} (member : entry ∈ entries) :
    entries.filter (key · = key entry) = [entry] := by
  induction entries with
  | nil => contradiction
  | cons first rest ih =>
      obtain ⟨fresh, distinct⟩ := nodup_cons.mp distinct
      rcases mem_cons.mp member with rfl | member
      · have noOther : rest.filter (key · = key entry) = [] := by
          rw [filter_eq_nil_iff]
          intro other otherMember sameKey
          exact fresh (mem_map.mpr ⟨other, otherMember, of_decide_eq_true sameKey⟩)
        rw [filter_cons_of_pos (by simp), noOther]
      · have otherKey : key first ≠ key entry :=
          fun sameKey => fresh (mem_map.mpr ⟨entry, member, sameKey.symm⟩)
        rw [filter_cons_of_neg (by simpa using otherKey), ih distinct member]

/-- Among entries with distinct keys, some have another key than a given one unless it is the only
entry. -/
theorem exists_key_ne_iff {key : α → κ} {entries : List α} (distinct : (entries.map key).Nodup)
    {entry : α} (member : entry ∈ entries) :
    (∃ other ∈ entries, key other ≠ key entry) ↔ 2 ≤ entries.length := by
  cases entries with
  | nil => contradiction
  | cons first rest =>
      cases rest with
      | nil =>
          obtain rfl := mem_singleton.mp member
          simp
      | cons second rest =>
          refine iff_of_true ?_ (by simp)
          have different : key first ≠ key second := by
            rw [map_cons, map_cons, nodup_cons] at distinct
            exact ne_of_not_mem_cons distinct.1
          by_cases sameKey : key first = key entry
          · exact ⟨second, by simp, fun other => different (sameKey.trans other.symm)⟩
          · exact ⟨first, mem_cons_self, sameKey⟩

/-- Of a list in which keys are paired with values, those pairs that are kept are found. -/
theorem lookup_filter_map_pair [BEq κ] [LawfulBEq κ] (value : κ → α) (keep : κ × α → Bool)
    (keys : List κ) (k : κ) :
    ((keys.map fun k => (k, value k)).filter keep).lookup k =
      if k ∈ keys ∧ keep (k, value k) = true then some (value k) else none := by
  induction keys with
  | nil => simp
  | cons first rest ih =>
      rw [map_cons, filter_cons]
      by_cases same : k = first
      · subst same
        by_cases kept : keep (k, value k) = true
        · simp [kept]
        · simp [kept, ih]
      · have apart : (k == first) = false := beq_false_of_ne same
        simp only [mem_cons, same, false_or, ← ih]
        split_ifs
        · rw [lookup_cons, apart]
        · rfl

theorem lookup_zip_map [BEq κ] (f : α → β) (keys : List κ) (values : List α) (k : κ) :
    (keys.zip (values.map f)).lookup k = ((keys.zip values).lookup k).map f := by
  induction keys generalizing values with
  | nil => rfl
  | cons key keys ih =>
      cases values with
      | nil => rfl
      | cons value values =>
          simp only [map_cons, zip_cons_cons, lookup_cons, ih]
          split <;> rfl

/-- Keys can be renamed as long as no other key gets the new name of the one that is looked up. -/
theorem lookup_zip_map_left [BEq κ] [LawfulBEq κ] {r : κ → κ} {keys : List κ} {values : List α}
    {k : κ} (apart : ∀ key ∈ keys, r key = r k → key = k) :
    ((keys.map r).zip values).lookup (r k) = (keys.zip values).lookup k := by
  induction keys generalizing values with
  | nil => rfl
  | cons key keys ih =>
      obtain ⟨first, others⟩ := forall_mem_cons.mp apart
      cases values with
      | nil => rfl
      | cons value values =>
          have sameKey : (r k == r key) = (k == key) := by
            rw [Bool.eq_iff_iff, beq_iff_eq, beq_iff_eq]
            exact ⟨fun same => (first same.symm).symm, congrArg r⟩
          simp only [map_cons, zip_cons_cons, lookup_cons, sameKey, ih others]

theorem eq_of_lookup_zip_map_self [BEq κ] [LawfulBEq κ] {f : κ → β} {keys : List κ} {k : κ}
    {value : β} (found : (keys.zip (keys.map f)).lookup k = some value) : value = f k := by
  induction keys with
  | nil => contradiction
  | cons key keys ih =>
      rw [map_cons, zip_cons_cons, lookup_cons] at found
      split at found
      · rename_i same
        rw [eq_of_beq same]
        exact (Option.some.inj found).symm
      · exact ih found

theorem mem_of_lookup_zip [BEq κ] [LawfulBEq κ] {keys : List κ} {values : List α} {k : κ}
    {value : α} (found : (keys.zip values).lookup k = some value) : value ∈ values := by
  rcases lookup_eq_some_iff.mp found with ⟨before, after, split, _⟩
  have member : (k, value) ∈ keys.zip values := by simp [split]
  exact (of_mem_zip member).2

theorem isSome_lookup_zipIdx_iff [BEq κ] [LawfulBEq κ] {keys : List κ} {k : κ} :
    (keys.zipIdx.lookup k).isSome = true ↔ k ∈ keys := by
  rw [lookup_isSome_iff]
  constructor
  · rintro ⟨⟨other, i⟩, member, same⟩
    rw [eq_of_beq same]
    exact mem_of_getElem? (mem_zipIdx_iff_getElem?.mp member)
  · intro member
    obtain ⟨i, found⟩ := mem_iff_getElem?.mp member
    exact ⟨(k, i), mem_zipIdx_iff_getElem?.mpr found, beq_self_eq_true k⟩

theorem getElem?_of_lookup_zipIdx [BEq κ] [LawfulBEq κ] {keys : List κ} {k : κ} {i : Nat}
    (found : keys.zipIdx.lookup k = some i) : keys[i]? = some k := by
  obtain ⟨front, back, split, _⟩ := lookup_eq_some_iff.mp found
  have member : (k, i) ∈ keys.zipIdx := by simp [split]
  exact mem_zipIdx_iff_getElem?.mp member

/-- In the table of the places of distinct keys, each key is found with its place. -/
theorem lookup_zipIdx_eq_some_iff [BEq κ] [LawfulBEq κ] {keys : List κ} (distinct : keys.Nodup)
    {k : κ} {i : Nat} : keys.zipIdx.lookup k = some i ↔ keys[i]? = some k := by
  refine ⟨getElem?_of_lookup_zipIdx, fun stands => ?_⟩
  obtain ⟨j, found⟩ :=
    Option.isSome_iff_exists.mp (isSome_lookup_zipIdx_iff.mpr (mem_of_getElem? stands))
  have stands' := getElem?_of_lookup_zipIdx found
  have inRange : i < keys.length := (getElem?_eq_some_iff.mp stands).1
  rw [found, (getElem?_inj inRange distinct).mp (stands.trans stands'.symm)]

theorem lookup_zipIdx [BEq κ] [LawfulBEq κ] (keys : List κ) (k : κ) (first : Nat) :
    (keys.zipIdx first).lookup k = (keys.findIdx? (· == k)).map (· + first) := by
  induction keys generalizing first with
  | nil => rfl
  | cons key keys ih =>
      rw [zipIdx_cons, lookup_cons, findIdx?_cons, BEq.comm (a := k), ih]
      cases key == k with
      | true => simp
      | false => simp [Function.comp_def, Nat.add_comm, Nat.add_left_comm]

/-- What has a key is found by going to the place that the table of the keys tells. -/
theorem find?_key_eq_bind_lookup_zipIdx [DecidableEq κ] (key : α → κ) (values : List α) (k : κ) :
    values.find? (key · = k) = ((values.map key).zipIdx.lookup k).bind (values[·]?) := by
  rw [find?_eq_bind_findIdx?_getElem?, lookup_zipIdx, findIdx?_map]
  simp only [Nat.add_zero, Option.map_id']
  congr

theorem Forall₂.exists_of_mem_left {relation : α → β → Prop} {as : List α} {bs : List β}
    (related : Forall₂ relation as bs) {a : α} (member : a ∈ as) :
    ∃ b ∈ bs, relation a b := by
  induction related with
  | nil => contradiction
  | cons first _ ih =>
      rcases mem_cons.mp member with rfl | member
      · exact ⟨_, mem_cons_self, first⟩
      · rcases ih member with ⟨b, bMember, holds⟩
        exact ⟨b, mem_cons_of_mem _ bMember, holds⟩

theorem Forall₂.exists_of_mem_right {relation : α → β → Prop} {as : List α} {bs : List β}
    (related : Forall₂ relation as bs) {b : β} (member : b ∈ bs) :
    ∃ a ∈ as, relation a b :=
  related.flip.exists_of_mem_left member

theorem Forall₂.imp_of_mem {relation other : α → β → Prop} {as : List α} {bs : List β}
    (related : Forall₂ relation as bs)
    (each : ∀ a ∈ as, ∀ b ∈ bs, relation a b → other a b) : Forall₂ other as bs := by
  induction related with
  | nil => exact .nil
  | cons first _ ih =>
      apply Forall₂.cons (each _ mem_cons_self _ mem_cons_self first)
      apply ih
      intro a member b otherMember
      exact each a (mem_cons_of_mem _ member) b (mem_cons_of_mem _ otherMember)

theorem Forall₂.map_eq_map {relation : α → β → Prop} {as : List α} {bs : List β}
    (related : Forall₂ relation as bs) {f : α → κ} {g : β → κ}
    (each : ∀ a b, relation a b → f a = g b) : as.map f = bs.map g := by
  induction related with
  | nil => rfl
  | cons first _ ih => rw [map_cons, map_cons, each _ _ first, ih]

theorem Forall₂.exists_of_append_left {relation : α → β → Prop} {as rest : List α} {bs : List β}
    (related : Forall₂ relation (as ++ rest) bs) :
    ∃ front back, bs = front ++ back ∧ Forall₂ relation as front ∧ Forall₂ relation rest back :=
  ⟨bs.take as.length, bs.drop as.length, (take_append_drop as.length bs).symm,
    (forall₂_take_append _ _ _ related.flip).flip, (forall₂_drop_append _ _ _ related.flip).flip⟩

/-- Two lists that correspond to a third one correspond to each other. -/
theorem Forall₂.of_common {γ : Type*} {left : α → β → Prop} {right : α → γ → Prop}
    {result : β → γ → Prop} {as : List α} {bs : List β} {cs : List γ}
    (lefts : Forall₂ left as bs) (rights : Forall₂ right as cs)
    (each : ∀ a ∈ as, ∀ b c, left a b → right a c → result b c) : Forall₂ result bs cs := by
  induction lefts generalizing cs with
  | nil =>
      cases rights
      exact .nil
  | cons first _ ih =>
      cases rights with
      | cons right rights =>
          apply Forall₂.cons (each _ mem_cons_self _ _ first right)
          exact ih rights fun a member => each a (mem_cons_of_mem _ member)

/-- Three sides of a square of corresponding lists give the fourth. -/
theorem Forall₂.square {γ δ : Type*} {left : α → γ → Prop} {top : α → β → Prop}
    {right : β → δ → Prop} {bottom : γ → δ → Prop} {as : List α} {bs : List β} {cs : List γ}
    {ds : List δ} (tops : Forall₂ top as bs) (lefts : Forall₂ left as cs)
    (rights : Forall₂ right bs ds)
    (each : ∀ a b c d, top a b → left a c → right b d → bottom c d) : Forall₂ bottom cs ds := by
  induction tops generalizing cs ds with
  | nil =>
      cases lefts
      cases rights
      exact .nil
  | cons first _ ih =>
      cases lefts with
      | cons left lefts =>
          cases rights with
          | cons right rights => exact .cons (each _ _ _ _ first left right) (ih lefts rights)

/-- Two sides of a square of corresponding lists can be completed to a square if their members
can. -/
theorem Forall₂.exists_fourth {γ δ : Type*} {left : α → γ → Prop} {top : α → β → Prop}
    {right : β → δ → Prop} {bottom : γ → δ → Prop} {as : List α} {bs : List β} {cs : List γ}
    (tops : Forall₂ top as bs) (lefts : Forall₂ left as cs)
    (each : ∀ a b c, top a b → left a c → ∃ d, right b d ∧ bottom c d) :
    ∃ ds, Forall₂ right bs ds ∧ Forall₂ bottom cs ds := by
  induction tops generalizing cs with
  | nil =>
      cases lefts
      exact ⟨[], .nil, .nil⟩
  | cons first _ ih =>
      cases lefts with
      | cons left lefts =>
          rcases each _ _ _ first left with ⟨d, right, bottom⟩
          rcases ih lefts with ⟨ds, rights, bottoms⟩
          exact ⟨d :: ds, .cons right rights, .cons bottom bottoms⟩

theorem Forall₂.sublistForall₂_filter {relation : α → β → Prop} {as : List α} {bs : List β}
    (related : Forall₂ relation as bs) (keep : α → Bool) :
    SublistForall₂ relation (as.filter keep) bs := by
  induction related with
  | nil => exact .nil
  | @cons a b as bs first _ ih =>
      rw [filter_cons]
      split_ifs
      · exact .cons first ih
      · exact .cons_right ih

theorem exists_forall₂_iff {relation : α → β → Prop} {as : List α} :
    (∃ bs, Forall₂ relation as bs) ↔ ∀ a ∈ as, ∃ b, relation a b := by
  constructor
  · rintro ⟨bs, related⟩ a member
    rcases related.exists_of_mem_left member with ⟨b, _, holds⟩
    exact ⟨b, holds⟩
  · intro each
    induction as with
    | nil => exact ⟨[], .nil⟩
    | cons a as ih =>
        rcases each a mem_cons_self with ⟨b, first⟩
        obtain ⟨bs, rest⟩ := ih fun other member => each other (mem_cons_of_mem a member)
        exact ⟨b :: bs, .cons first rest⟩

/-! ## Places in lists that correspond -/

theorem Forall₂.getElem?_rel {relation : α → β → Prop} {as : List α} {bs : List β}
    (related : Forall₂ relation as bs) (i : Nat) : Option.Rel relation as[i]? bs[i]? := by
  induction related generalizing i with
  | nil => exact .none
  | cons first _ ih =>
      cases i with
      | zero => exact .some first
      | succ i => exact ih i

/-- The places of a part of a list, in order, are those at which its members stand. -/
theorem forall₂_range'_getElem? (front as back : List α) :
    Forall₂ (fun i a => (front ++ (as ++ back))[i]? = some a) (range' front.length as.length)
      as := by
  induction as generalizing front with
  | nil => exact .nil
  | cons a as ih =>
      have rest := ih (front ++ [a])
      rw [length_append, length_singleton, append_assoc, singleton_append] at rest
      exact .cons (by simp) rest

theorem forall₂_range_getElem? (as : List α) :
    Forall₂ (fun i a => as[i]? = some a) (range as.length) as := by
  have places := forall₂_range'_getElem? [] as []
  rw [append_nil] at places
  exact range_eq_range' ▸ places

/-! ## Searching lists that correspond -/

theorem find?_filter_of_imp {p q : α → Bool} (imp : ∀ a, q a = true → p a = true) (as : List α) :
    (as.filter p).find? q = as.find? q := by
  rw [find?_filter]
  refine congrArg (as.find? ·) (funext fun a => ?_)
  rw [Bool.eq_iff_iff, decide_eq_true_iff]
  exact and_iff_right_of_imp (imp a)

/-- The first result comes from the first member that has one. -/
theorem findSome?_eq_bind_find? (f : α → Option β) (as : List α) :
    as.findSome? f = (as.find? fun a => (f a).isSome).bind f := by
  induction as with
  | nil => rfl
  | cons a as ih =>
      rw [findSome?_cons, find?_cons]
      cases found : f a with
      | none => exact ih
      | some b => exact found.symm

theorem Forall₂.find?_rel {relation : α → β → Prop} {as : List α} {bs : List β}
    (related : Forall₂ relation as bs) {p : α → Bool} {q : β → Bool}
    (each : ∀ a b, relation a b → p a = q b) :
    Option.Rel relation (as.find? p) (bs.find? q) := by
  induction related with
  | nil => exact .none
  | @cons a b _ _ first _ ih =>
      rw [find?_cons, find?_cons, each a b first]
      cases q b with
      | true => exact .some first
      | false => exact ih

theorem Forall₂.findSome?_rel {γ δ : Type*} {relation : α → β → Prop} {result : γ → δ → Prop}
    {as : List α} {bs : List β} (related : Forall₂ relation as bs) {f : α → Option γ}
    {g : β → Option δ} (each : ∀ a b, relation a b → Option.Rel result (f a) (g b)) :
    Option.Rel result (as.findSome? f) (bs.findSome? g) := by
  induction related with
  | nil => exact .none
  | @cons a b _ _ first _ ih =>
      have here := each a b first
      rw [findSome?_cons, findSome?_cons]
      generalize f a = found at here ⊢
      generalize g b = otherFound at here ⊢
      cases here with
      | none => exact ih
      | some holds => exact .some holds

theorem Forall₂.any_eq {relation : α → β → Prop} {as : List α} {bs : List β}
    (related : Forall₂ relation as bs) {p : α → Bool} {q : β → Bool}
    (each : ∀ a b, relation a b → p a = q b) : as.any p = bs.any q := by
  induction related with
  | nil => rfl
  | cons first _ ih => rw [any_cons, any_cons, each _ _ first, ih]

end List

theorem Option.Rel.eq_none {α β : Type*} {relation : α → β → Prop} {b : Option β}
    (related : Option.Rel relation .none b) : b = .none := by
  cases related
  rfl

theorem Option.Rel.exists_of_some {α β : Type*} {relation : α → β → Prop} {a : α} {b : Option β}
    (related : Option.Rel relation (.some a) b) : ∃ other, b = .some other ∧ relation a other := by
  cases related with
  | some holds => exact ⟨_, rfl, holds⟩

theorem Option.Rel.imp {α β : Type*} {relation result : α → β → Prop} {a : Option α}
    {b : Option β} (related : Option.Rel relation a b)
    (each : ∀ a b, relation a b → result a b) : Option.Rel result a b := by
  cases related with
  | none => exact .none
  | some holds => exact .some (each _ _ holds)

theorem Option.Rel.any_eq {α β : Type*} {relation : α → β → Prop} {a : Option α} {b : Option β}
    (related : Option.Rel relation a b) {p : α → Bool} {q : β → Bool}
    (each : ∀ a b, relation a b → p a = q b) : a.any p = b.any q := by
  cases related with
  | none => rfl
  | some holds => exact each _ _ holds
