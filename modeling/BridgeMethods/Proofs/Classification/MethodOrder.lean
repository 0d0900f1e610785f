import BridgeMethods.Definition.Scenario
import BridgeMethods.Proofs.Pool.Reordering
import BridgeMethods.Proofs.View.Simulation

/-!
# Visibility bridges and the order of methods

The nearest super type with an overridable method that has the token of a bridge decides whether it
is a visibility bridge, and the first such method of that type is asked.  Type arguments can give
one token to several methods of a type: one method is declared with the token, others have it only
through the view.  Then the rule says what the first of them says.  In all other cases the order in
which classes list their methods has no part in it.
-/

namespace BridgeMethods

/-- Whether a bridge is a visibility bridge if the super types say so. -/
def MethodView.mayExpose (method : MethodView) : Bool :=
  method.isBridge && !method.owner.isInterface && !method.isReturnTypeBridge

namespace ClassPool

/-- The nearest super type with an overridable method that has the token of a method. -/
def nearestOverridden? (pool : ClassPool) (method : MethodView) : Option TypeView :=
  (pool.superTypes method.owner).find? fun view => (view.overridableWith? method.token).isSome

theorem isVisibilityBridge_eq (pool : ClassPool) (method : MethodView) :
    pool.isVisibilityBridge method = (method.mayExpose &&
      (pool.nearestOverridden? method).any fun view =>
        (view.overridableWith? method.token).any (·.isDeclared)) := by
  rw [isVisibilityBridge, List.findSome?_eq_bind_find?, Option.any_bind]
  rfl

/-- The type that decides about a bridge has a method for either verdict: one that is declared with
the token of the bridge, and one that has the token through the view only. -/
structure Ambiguous (pool : ClassPool) (method : MethodView) : Prop where
  mayExpose : method.mayExpose = true
  mixed : ∃ view ∈ pool.nearestOverridden? method, ∀ verdict : Bool,
    ∃ candidate ∈ view.methods,
      candidate.isOverridableWith method.token = true ∧ candidate.isDeclared = verdict

instance (pool : ClassPool) (method : MethodView) : Decidable (pool.Ambiguous method) :=
  decidable_of_iff
    (method.mayExpose = true ∧ ∃ view ∈ pool.nearestOverridden? method, ∀ verdict : Bool,
      ∃ candidate ∈ view.methods,
        candidate.isOverridableWith method.token = true ∧ candidate.isDeclared = verdict)
    ⟨fun ⟨mayExpose, mixed⟩ => ⟨mayExpose, mixed⟩,
      fun ambiguous => ⟨ambiguous.mayExpose, ambiguous.mixed⟩⟩

end ClassPool

/-! ## Views of classes that list their methods in another order -/

namespace TypeView.Related

variable {view other : TypeView}

theorem symm (related : view.Related ClassEntry.Reordered other) :
    other.Related ClassEntry.Reordered view :=
  ⟨related.entry.symm, related.bindings.symm⟩

theorem corresponds (related : view.Related ClassEntry.Reordered other) (method : MethodEntry) :
    (MethodView.mk view method).Corresponds ⟨other, method⟩ :=
  MethodView.Alike.corresponds
    ⟨⟨related.entry.header ▸ .refl _, related.bindings⟩, .refl method⟩

theorem any_methods_eq (related : view.Related ClassEntry.Reordered other)
    {p q : MethodView → Bool}
    (each : ∀ method otherMethod, method.Corresponds otherMethod → p method = q otherMethod) :
    view.methods.any p = other.methods.any q := by
  rw [methods, methods, List.any_map, List.any_map, related.entry.methods.any_eq]
  apply congrArg (other.entry.methods.any ·)
  funext method
  exact each _ _ (related.corresponds method)

theorem exists_corresponding (related : view.Related ClassEntry.Reordered other)
    {method : MethodView} (member : method ∈ view.methods) :
    ∃ otherMethod ∈ other.methods, method.Corresponds otherMethod := by
  rcases List.mem_map.mp member with ⟨entry, entryMember, rfl⟩
  exact ⟨_, List.mem_map_of_mem (related.entry.methods.mem_iff.mp entryMember),
    related.corresponds entry⟩

theorem isReturnTypeBridge_eq (related : view.Related ClassEntry.Reordered other)
    (method : MethodEntry) :
    (MethodView.mk view method).isReturnTypeBridge =
      (MethodView.mk other method).isReturnTypeBridge := by
  have corresponds := related.corresponds method
  have siblings := related.any_methods_eq fun _ _ => corresponds.isSiblingOf_eq
  rw [MethodView.isReturnTypeBridge_eq, MethodView.isReturnTypeBridge_eq, corresponds.isBridge_eq,
    siblings]

theorem mayExpose_eq (related : view.Related ClassEntry.Reordered other) (method : MethodEntry) :
    (MethodView.mk view method).mayExpose = (MethodView.mk other method).mayExpose := by
  have corresponds := related.corresponds method
  rw [MethodView.mayExpose, MethodView.mayExpose, corresponds.isBridge_eq, corresponds.isInterface,
    related.isReturnTypeBridge_eq]

theorem isSome_overridableWith?_eq (related : view.Related ClassEntry.Reordered other)
    (token : MethodToken) :
    (view.overridableWith? token).isSome = (other.overridableWith? token).isSome := by
  rw [overridableWith?_eq_find?, overridableWith?_eq_find?, List.isSome_find?, List.isSome_find?]
  exact related.any_methods_eq fun _ _ corresponds => corresponds.isOverridableWith_eq token

/-- If all methods that may be found first say the same, they say so in any order. -/
theorem any_overridableWith?_eq (related : view.Related ClassEntry.Reordered other)
    {token : MethodToken}
    (agree : ∀ a ∈ view.methods, ∀ b ∈ view.methods, a.isOverridableWith token = true →
      b.isOverridableWith token = true → a.isDeclared = b.isDeclared) :
    (view.overridableWith? token).any (·.isDeclared) =
      (other.overridableWith? token).any (·.isDeclared) := by
  have sameIsSome := related.isSome_overridableWith?_eq token
  rw [overridableWith?_eq_find?, overridableWith?_eq_find?] at sameIsSome ⊢
  cases found : view.methods.find? (·.isOverridableWith token) with
  | none =>
      cases otherFound : other.methods.find? (·.isOverridableWith token) with
      | none => rfl
      | some otherFirst => simp [found, otherFound] at sameIsSome
  | some first =>
      cases otherFound : other.methods.find? (·.isOverridableWith token) with
      | none => simp [found, otherFound] at sameIsSome
      | some otherFirst =>
          -- What is first in the other order is in this order too, though maybe not first.
          obtain ⟨same, sameMember, corresponds⟩ :=
            related.symm.exists_corresponding (List.mem_of_find?_eq_some otherFound)
          have sameFits : same.isOverridableWith token = true :=
            (corresponds.isOverridableWith_eq token).symm.trans (List.find?_some otherFound)
          rw [Option.any_some, Option.any_some, corresponds.isDeclared_eq]
          exact agree first (List.mem_of_find?_eq_some found) same sameMember
            (List.find?_some found) sameFits

end TypeView.Related

theorem TypeView.overridableWith?_of_head? {view : TypeView} {first : MethodEntry}
    (comesFirst : view.entry.methods.head? = some first) {token : MethodToken}
    (fits : (MethodView.mk view first).isOverridableWith token = true) :
    view.overridableWith? token = some ⟨view, first⟩ := by
  rcases List.head?_eq_some_iff.mp comesFirst with ⟨rest, methods_eq⟩
  rw [overridableWith?_eq_find?, methods, methods_eq, List.map_cons, List.find?_cons_of_pos fits]

/-! ## Pools whose classes list their methods in another order -/

namespace ClassPool

theorem agree_of_not_ambiguous {pool : ClassPool} {method : MethodView}
    (mayExpose : method.mayExpose = true) (settled : ¬ pool.Ambiguous method) {view : TypeView}
    (nearest : pool.nearestOverridden? method = some view) :
    ∀ a ∈ view.methods, ∀ b ∈ view.methods, a.isOverridableWith method.token = true →
      b.isOverridableWith method.token = true → a.isDeclared = b.isDeclared := by
  intro a aMember b bMember aFits bFits
  by_contra differ
  refine settled ⟨mayExpose, view, nearest, fun verdict => ?_⟩
  by_cases ofA : a.isDeclared = verdict
  · exact ⟨a, aMember, aFits, ofA⟩
  · exact ⟨b, bMember, bFits,
      (Bool.eq_not.mpr (Ne.symm differ)).trans (Bool.eq_not.mpr (Ne.symm ofA)).symm⟩

variable {definitions : List ClassDef} {pool other : ClassPool} {view otherView : TypeView}

theorem Reordered.simulation (reordered : pool.Reordered other) :
    pool.Simulation other ClassEntry.Reordered where
  header := fun _ _ same => same.header ▸ .refl _
  superReference := fun _ _ same => same.superReference
  target := fun _ _ _ _ _ => List.Forall₂.find?_rel reordered fun _ _ same => by rw [same.name_eq]

theorem Reordered.nearestOverridden?_rel (reordered : pool.Reordered other)
    (consistent : pool.Consistent) (member : view.entry ∈ pool.classes)
    (otherMember : otherView.entry ∈ other.classes)
    (related : view.Related ClassEntry.Reordered otherView) (method : MethodEntry) :
    Option.Rel (TypeView.Related ClassEntry.Reordered) (pool.nearestOverridden? ⟨view, method⟩)
      (other.nearestOverridden? ⟨otherView, method⟩) := by
  have chains := reordered.simulation.superTypes consistent.acyclic
    (reordered.consistent consistent).acyclic member otherMember related
  rw [nearestOverridden?, nearestOverridden?, (related.corresponds method).token]
  exact chains.find?_rel fun _ _ related => related.isSome_overridableWith?_eq _

/-- A bridge that is not ambiguous is a visibility bridge in every order or in none. -/
theorem Reordered.isVisibilityBridge_eq (reordered : pool.Reordered other)
    (consistent : pool.Consistent) (member : view.entry ∈ pool.classes)
    (otherMember : otherView.entry ∈ other.classes)
    (related : view.Related ClassEntry.Reordered otherView) {method : MethodEntry}
    (settled : ¬ pool.Ambiguous ⟨view, method⟩) :
    pool.isVisibilityBridge ⟨view, method⟩ = other.isVisibilityBridge ⟨otherView, method⟩ := by
  have nearest := reordered.nearestOverridden?_rel consistent member otherMember related method
  rw [ClassPool.isVisibilityBridge_eq, ClassPool.isVisibilityBridge_eq,
    ← related.mayExpose_eq method, ← (related.corresponds method).token]
  cases mayExpose : (MethodView.mk view method).mayExpose with
  -- Not by `rfl`, which would compare the two searches.
  | false => rw [Bool.false_and, Bool.false_and]
  | true =>
      have agree (nearest : TypeView)
          (found : pool.nearestOverridden? ⟨view, method⟩ = some nearest) :=
        agree_of_not_ambiguous mayExpose settled found
      generalize pool.nearestOverridden? ⟨view, method⟩ = found at nearest agree ⊢
      generalize other.nearestOverridden? ⟨otherView, method⟩ = otherFound at nearest ⊢
      cases nearest with
      | none => rfl
      | some related =>
          rw [Option.any_some, Option.any_some, related.any_overridableWith?_eq (agree _ rfl)]

theorem mem_of_nearestOverridden? (acyclic : Acyclic pool.Subclass)
    (member : view.entry ∈ pool.classes) {method : MethodEntry} {nearest : TypeView}
    (found : pool.nearestOverridden? ⟨view, method⟩ = some nearest) :
    nearest.entry ∈ pool.classes :=
  entry_mem_of_mem_superTypes acyclic member (List.mem_of_find?_eq_some found)

/-- If the type that decides about a bridge lists a method for it first, this method decides. -/
theorem Reordered.isVisibilityBridge_of_first (reordered : pool.Reordered other)
    (consistent : pool.Consistent) (member : view.entry ∈ pool.classes)
    (otherMember : otherView.entry ∈ other.classes)
    (related : view.Related ClassEntry.Reordered otherView) {method : MethodEntry}
    (mayExpose : (MethodView.mk view method).mayExpose = true) {nearest : TypeView}
    (found : pool.nearestOverridden? ⟨view, method⟩ = some nearest) {first : MethodEntry}
    (fits : (MethodView.mk nearest first).isOverridableWith (MethodView.mk view method).token = true)
    (comesFirst : ∀ entry ∈ other.classes, entry.name = nearest.entry.name →
      entry.methods.head? = some first) :
    other.isVisibilityBridge ⟨otherView, method⟩ = (MethodView.mk nearest first).isDeclared := by
  have nearestRel := reordered.nearestOverridden?_rel consistent member otherMember related method
  rw [found] at nearestRel
  obtain ⟨otherNearest, otherFound, nearestRelated⟩ := nearestRel.exists_of_some
  have corresponds := nearestRelated.corresponds first
  have otherNearestMember : otherNearest.entry ∈ other.classes :=
    mem_of_nearestOverridden? (reordered.consistent consistent).acyclic otherMember otherFound
  rw [corresponds.isOverridableWith_eq, (related.corresponds method).token] at fits
  have decides := TypeView.overridableWith?_of_head?
    (comesFirst _ otherNearestMember nearestRelated.entry.name_eq.symm) fits
  rw [ClassPool.isVisibilityBridge_eq, ← related.mayExpose_eq method, mayExpose, otherFound,
    Option.any_some, decides, Option.any_some, Bool.true_and, corresponds.isDeclared_eq]

/-- An ambiguous bridge is a visibility bridge in one order and is none in another. -/
theorem Ambiguous.exists_order (accepted : ofDefinitions definitions = .ok pool)
    {entry : ClassEntry} (member : entry ∈ pool.classes) {method : MethodEntry}
    (ambiguous : pool.Ambiguous ⟨.declaration entry, method⟩) (verdict : Bool) :
    ∃ others other, List.Forall₂ ClassDef.Reordered definitions others ∧
      ofDefinitions others = .ok other ∧
      ∀ otherEntry ∈ other.classes, otherEntry.name = entry.name →
        other.isVisibilityBridge ⟨.declaration otherEntry, method⟩ = verdict := by
  have consistent := (ofDefinitions_eq_ok_iff.mp accepted).2
  rcases ambiguous.mixed with ⟨nearest, found, mixed⟩
  rcases mixed verdict with ⟨candidate, candidateMember, fits, declared⟩
  rcases List.mem_map.mp candidateMember with ⟨first, firstMember, rfl⟩
  have nearestMember : nearest.entry ∈ pool.classes :=
    mem_of_nearestOverridden? consistent.acyclic member found
  obtain ⟨others, other, reordered, otherAccepted, same, comesFirst⟩ :=
    exists_reordered_with_first accepted nearestMember firstMember
  refine ⟨others, other, reordered, otherAccepted, fun otherEntry otherMember named => ?_⟩
  have distinct := (ofDefinitions_eq_ok_iff.mp otherAccepted).1.names_nodup
  have related : (TypeView.declaration entry).Related ClassEntry.Reordered
      (.declaration otherEntry) :=
    ⟨same.entry_reordered distinct member otherMember named.symm, rfl⟩
  rw [same.isVisibilityBridge_of_first consistent member otherMember related ambiguous.mayExpose
    found fits comesFirst, declared]

/-- Whether a method is a visibility bridge is the same for all orders in which the classes may list
their methods if and only if the method is not ambiguous. -/
theorem visibilityBridge_in_any_order_iff (accepted : ofDefinitions definitions = .ok pool) :
    ∀ entry ∈ pool.classes, ∀ method ∈ entry.methods,
      (∀ others, List.Forall₂ ClassDef.Reordered definitions others →
        ∃ other, ofDefinitions others = .ok other ∧
          ∃ otherEntry ∈ other.classes, entry.Reordered otherEntry ∧
            other.isVisibilityBridge ⟨.declaration otherEntry, method⟩ =
              pool.isVisibilityBridge ⟨.declaration entry, method⟩) ↔
        ¬ pool.Ambiguous ⟨.declaration entry, method⟩ := by
  intro entry member method _
  have consistent := (ofDefinitions_eq_ok_iff.mp accepted).2
  constructor
  · intro anyOrder ambiguous
    obtain ⟨others, other, reordered, otherAccepted, changed⟩ := ambiguous.exists_order accepted
      member (!pool.isVisibilityBridge ⟨.declaration entry, method⟩)
    rcases anyOrder others reordered with
      ⟨found, foundAccepted, otherEntry, otherMember, same, kept⟩
    obtain rfl := Except.ok.inj (otherAccepted.symm.trans foundAccepted)
    rw [changed otherEntry otherMember same.name_eq.symm] at kept
    exact (Bool.not_eq_self _).mp kept
  · intro settled others reordered
    rcases ofDefinitions_reordered accepted reordered with ⟨other, otherAccepted, same⟩
    rcases List.Forall₂.exists_of_mem_left same member with ⟨otherEntry, otherMember, sameEntry⟩
    have related : (TypeView.declaration entry).Related ClassEntry.Reordered
        (.declaration otherEntry) := ⟨sameEntry, rfl⟩
    exact ⟨other, otherAccepted, otherEntry, otherMember, sameEntry,
      (same.isVisibilityBridge_eq consistent member otherMember related settled).symm⟩

theorem visibilityBridge_in_any_order_scenario :
    ∃ pool, ofDefinitions Scenario.closestVisibilityAncestor = .ok pool ∧
      ∃ entry ∈ pool.classes, ∃ method ∈ entry.methods,
        pool.isVisibilityBridge ⟨.declaration entry, method⟩ = true ∧
        ∀ others, List.Forall₂ ClassDef.Reordered Scenario.closestVisibilityAncestor others →
          ∃ other, ofDefinitions others = .ok other ∧
            ∃ otherEntry ∈ other.classes, entry.Reordered otherEntry ∧
              other.isVisibilityBridge ⟨.declaration otherEntry, method⟩ =
                pool.isVisibilityBridge ⟨.declaration entry, method⟩ := by
  obtain ⟨pool, accepted, entry, member, method, methodMember, isBridge, settled⟩ :
      ∃ pool, ofDefinitions Scenario.closestVisibilityAncestor = .ok pool ∧
        ∃ entry ∈ pool.classes, ∃ method ∈ entry.methods,
          pool.isVisibilityBridge ⟨.declaration entry, method⟩ = true ∧
            ¬ pool.Ambiguous ⟨.declaration entry, method⟩ :=
    ⟨_, rfl, _, List.mem_cons_of_mem _ (List.mem_cons_of_mem _ List.mem_cons_self), _,
      List.mem_cons_self, by decide +kernel, by decide +kernel⟩
  exact ⟨pool, accepted, entry, member, method, methodMember, isBridge,
    (visibilityBridge_in_any_order_iff accepted entry member method methodMember).mpr settled⟩

/-- A method for a type variable. -/
def variableOverload : MethodDef := { name := "m", parameters := ["T"] }

/-- A method for a fixed type. -/
def stringOverload : MethodDef := { name := "m", parameters := ["java.lang.String"] }

/-- A class with a type variable and some methods, and a subclass that extends it at the fixed type,
with a bridge for that type. -/
def meetingOverloads (methods : List MethodDef) : List ClassDef := [
  { name := "a.Base", typeParameters := [{ name := "T" }], methods },
  { name := "a.Sub", extending := some "a.Base<java.lang.String>"
    methods := [stringOverload.withModifiers [.bridge]] }]

/-- The same methods in two orders, with different verdicts on the bridge of the subclass. -/
theorem visibilityBridge_depends_on_order :
    List.Forall₂ ClassDef.Reordered (meetingOverloads [variableOverload, stringOverload])
      (meetingOverloads [stringOverload, variableOverload]) ∧
    ∃ pool other,
      ofDefinitions (meetingOverloads [variableOverload, stringOverload]) = .ok pool ∧
      ofDefinitions (meetingOverloads [stringOverload, variableOverload]) = .ok other ∧
      ∃ entry ∈ pool.classes, ∃ otherEntry ∈ other.classes, entry.Reordered otherEntry ∧
        ∃ method ∈ entry.methods,
          pool.isVisibilityBridge ⟨.declaration entry, method⟩ = false ∧
            other.isVisibilityBridge ⟨.declaration otherEntry, method⟩ = true := by
  constructor
  · exact .cons ⟨rfl, rfl, rfl, rfl, rfl, .swap _ _ _⟩ (.cons (.refl _) .nil)
  · exact ⟨_, _, rfl, rfl, _, List.mem_cons_of_mem _ List.mem_cons_self, _,
      List.mem_cons_of_mem _ List.mem_cons_self, ⟨rfl, rfl, .refl _⟩, _, List.mem_cons_self,
      by decide +kernel, by decide +kernel⟩

end ClassPool

end BridgeMethods
