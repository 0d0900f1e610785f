import BridgeMethods.Bridge
import Mathlib.Logic.Basic
import Mathlib.Logic.ExistsUnique
import Mathlib.Tactic.SplitIfs

/-!
# Sorts that can come together

Each sort has a rule of its own, and the rules do not look at each other's verdicts.  They never
contradict each other all the same: every method is of exactly one kind, what a subtype may override
and what an interface implements are ordinary methods, and the reasons for a bridge exclude each
other as far as the return type and interfaces are concerned.

None of this depends on the hierarchy, so it is said about any method seen through any view.
-/

namespace BridgeMethods

namespace MethodSort

/-- The place of a sort in the list of all sorts. -/
def place (s : MethodSort) : Nat :=
  all.idxOf s

/-- Whether a sort tells what kind of method something is: an ordinary method, a constructor or the
type initializer. -/
def isKind : MethodSort → Bool
  | .method | .constructor | .typeInitializer => true
  | _ => false

theorem all_pairwise_place : all.Pairwise (·.place < ·.place) := by
  decide

end MethodSort

namespace MethodView

variable {method : MethodView}

/-- The sort that tells the kind of a method. -/
def kind (method : MethodView) : MethodSort :=
  if method.isConstructor then .constructor
  else if method.isTypeInitializer then .typeInitializer
  else .method

theorem isKind_kind : method.kind.isKind = true := by
  rw [kind]
  split_ifs <;> rfl

theorem isTypeInitializer_eq_false (isConstructor : method.isConstructor = true) :
    method.isTypeInitializer = false := by
  have named : method.internalName = constructorName := of_decide_eq_true isConstructor
  rw [isTypeInitializer, named]
  rfl

theorem isMethod_of_isOverridable (isOverridable : method.isOverridable = true) :
    method.isMethod = true := by
  simp only [MethodView.isOverridable, Bool.and_eq_true] at isOverridable
  exact isOverridable.1.1.1.1

theorem isMethod_of_isDefaultMethod (isDefaultMethod : method.isDefaultMethod = true) :
    method.isMethod = true := by
  simp only [MethodView.isDefaultMethod, Bool.and_eq_true] at isDefaultMethod
  exact isDefaultMethod.1.1.1.1.1

theorem isBridge_eq_false_of_isDefaultMethod (isDefaultMethod : method.isDefaultMethod = true) :
    method.isBridge = false := by
  simp only [MethodView.isDefaultMethod, Bool.and_eq_true, Bool.not_eq_true'] at isDefaultMethod
  exact isDefaultMethod.1.2

end MethodView

namespace ClassPool

variable {pool : ClassPool} {method : MethodView}

theorem mem_sortsOf_iff {s : MethodSort} :
    s ∈ pool.sortsOf method ↔ pool.isOfSort method s = true := by
  rw [sortsOf, List.mem_filter]
  exact and_iff_right s.mem_all

/-- Of the sorts that tell the kind of a method, just one is a sort of it. -/
theorem isOfSort_iff_of_isKind {s : MethodSort} (isKind : s.isKind = true) :
    pool.isOfSort method s = true ↔ s = method.kind := by
  have apart : method.isConstructor = true → method.isTypeInitializer = false :=
    MethodView.isTypeInitializer_eq_false
  cases s with
  | method | constructor | typeInitializer =>
      simp only [isOfSort, MethodView.kind, MethodView.isMethod]
      generalize method.isConstructor = isConstructor at apart ⊢
      generalize method.isTypeInitializer = isTypeInitializer at apart ⊢
      decide +revert
  | overridable | visibilityBridge | typeVariableBridge | returnTypeBridge | defaultMethod =>
      contradiction

/-- Every reason for a bridge asks for a method that is marked as one. -/
theorem isBridge_of_isBridgeSort {s : MethodSort} (isBridgeSort : s.isBridgeSort = true)
    (holds : pool.isOfSort method s = true) : method.isBridge = true := by
  cases s with
  | visibilityBridge =>
      simp only [isOfSort, isVisibilityBridge, Bool.and_eq_true] at holds
      exact holds.1.1.1
  | typeVariableBridge =>
      simp only [isOfSort, isTypeVariableBridge, Bool.and_eq_true] at holds
      exact holds.1.1
  | returnTypeBridge =>
      simp only [isOfSort, MethodView.isReturnTypeBridge, Bool.and_eq_true] at holds
      exact holds.1
  | method | constructor | typeInitializer | overridable | defaultMethod => contradiction

theorem not_isVisibilityBridge_of_returnType
    (isReturnTypeBridge : method.isReturnTypeBridge = true) :
    pool.isVisibilityBridge method = false := by
  rw [isVisibilityBridge, isReturnTypeBridge]
  simp

theorem not_isTypeVariableBridge_of_returnType
    (isReturnTypeBridge : method.isReturnTypeBridge = true) :
    pool.isTypeVariableBridge method = false := by
  rw [isTypeVariableBridge, isReturnTypeBridge]
  simp

theorem not_isVisibilityBridge_of_interface (isInterface : method.owner.isInterface = true) :
    pool.isVisibilityBridge method = false := by
  rw [isVisibilityBridge, isInterface]
  simp

/-- In an interface, the return type is the only reason for a bridge that is looked for. -/
theorem isTypeVariableBridge_eq_of_interface (isInterface : method.owner.isInterface = true)
    (isBridge : method.isBridge = true) :
    pool.isTypeVariableBridge method = !method.isReturnTypeBridge := by
  rw [isTypeVariableBridge, isInterface, isBridge]
  simp

/-- Which sorts of a method come together. -/
structure Compatible (pool : ClassPool) (method : MethodView) : Prop where
  /-- Sorts come in the order in which all sorts are listed, none of them twice. -/
  increasing : (pool.sortsOf method).Pairwise (·.place < ·.place)
  /-- Just one sort tells the kind of the method. -/
  oneKind : ∃! s, s ∈ pool.sortsOf method ∧ s.isKind = true
  method_of_overridable : .overridable ∈ pool.sortsOf method → .method ∈ pool.sortsOf method
  method_of_default : .defaultMethod ∈ pool.sortsOf method → .method ∈ pool.sortsOf method
  /-- Only for what is marked as a bridge there is a reason. -/
  marked_of_bridge : ∀ s ∈ pool.sortsOf method, s.isBridgeSort = true →
    method.flags.has .bridge = true
  unmarked_of_default : .defaultMethod ∈ pool.sortsOf method → method.flags.has .bridge = false
  no_bridge_of_default : .defaultMethod ∈ pool.sortsOf method →
    ∀ s ∈ pool.sortsOf method, s.isBridgeSort = false
  /-- A bridge to a narrower return type is there for no other reason. -/
  only_returnType : .returnTypeBridge ∈ pool.sortsOf method →
    .visibilityBridge ∉ pool.sortsOf method ∧ .typeVariableBridge ∉ pool.sortsOf method
  no_visibility_of_interface : method.owner.isInterface = true →
    .visibilityBridge ∉ pool.sortsOf method
  /-- A bridge of an interface is there for one of the other two reasons, and not for both. -/
  one_of_interface : method.owner.isInterface = true → method.flags.has .bridge = true →
    (.returnTypeBridge ∈ pool.sortsOf method ↔ .typeVariableBridge ∉ pool.sortsOf method)

/-- The sorts of every method are compatible, whatever the pool and the view are. -/
theorem sortsOf_compatible (pool : ClassPool) (method : MethodView) : pool.Compatible method where
  increasing := MethodSort.all_pairwise_place.filter _
  oneKind := by
    have isKind : method.kind.isKind = true := MethodView.isKind_kind
    have member : method.kind ∈ pool.sortsOf method :=
      mem_sortsOf_iff.mpr ((isOfSort_iff_of_isKind isKind).mpr rfl)
    refine ⟨method.kind, ⟨member, isKind⟩, ?_⟩
    rintro s ⟨member, isKind⟩
    exact (isOfSort_iff_of_isKind isKind).mp (mem_sortsOf_iff.mp member)
  method_of_overridable := by
    simp only [mem_sortsOf_iff]
    exact MethodView.isMethod_of_isOverridable
  method_of_default := by
    simp only [mem_sortsOf_iff]
    exact MethodView.isMethod_of_isDefaultMethod
  marked_of_bridge := by
    intro s member isBridgeSort
    exact isBridge_of_isBridgeSort isBridgeSort (mem_sortsOf_iff.mp member)
  unmarked_of_default := by
    intro member
    exact MethodView.isBridge_eq_false_of_isDefaultMethod (mem_sortsOf_iff.mp member)
  no_bridge_of_default := by
    intro isDefault s member
    have unmarked := MethodView.isBridge_eq_false_of_isDefaultMethod (mem_sortsOf_iff.mp isDefault)
    cases isBridgeSort : s.isBridgeSort with
    | false => rfl
    | true =>
        have marked := isBridge_of_isBridgeSort isBridgeSort (mem_sortsOf_iff.mp member)
        rw [unmarked] at marked
        contradiction
  only_returnType := by
    simp only [mem_sortsOf_iff, Bool.not_eq_true]
    intro isReturnTypeBridge
    exact ⟨not_isVisibilityBridge_of_returnType isReturnTypeBridge,
      not_isTypeVariableBridge_of_returnType isReturnTypeBridge⟩
  no_visibility_of_interface := by
    simp only [mem_sortsOf_iff, Bool.not_eq_true]
    exact not_isVisibilityBridge_of_interface
  one_of_interface := by
    intro isInterface isBridge
    have exactlyOne : pool.isTypeVariableBridge method = !method.isReturnTypeBridge :=
      isTypeVariableBridge_eq_of_interface isInterface isBridge
    simp [mem_sortsOf_iff, isOfSort, exactlyOne]

end ClassPool

end BridgeMethods
