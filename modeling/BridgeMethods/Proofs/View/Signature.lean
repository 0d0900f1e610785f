import BridgeMethods.Definition.Scenario
import BridgeMethods.Proofs.View.Alike
import BridgeMethods.Proofs.View.Names
import BridgeMethods.Report.Basic

/-!
# Signatures are keys

Methods are validated by token, but they are found and reported by signature, which is one text.
The text can be taken apart again although nothing is known of the name of the method: the return
type ends at the first space and the parameter types begin after the last opening parenthesis,
because neither occurs in an erased name.  So methods with one signature have one token.
-/

namespace List

universe u

variable {α : Type u} {a : α} {left left' right right' : List α}

/-- A list is cut in one way at the first place where an element stands. -/
theorem append_cons_inj_of_not_mem_left (fresh : a ∉ left) (fresh' : a ∉ left')
    (same : left ++ a :: right = left' ++ a :: right') : left = left' ∧ right = right' := by
  induction left generalizing left' with
  | nil =>
      cases left' with
      | nil => exact ⟨rfl, (cons.inj same).2⟩
      | cons first rest =>
          rcases cons.inj same with ⟨rfl, _⟩
          exact absurd mem_cons_self fresh'
  | cons first rest ih =>
      cases left' with
      | nil =>
          rcases cons.inj same with ⟨rfl, _⟩
          exact absurd mem_cons_self fresh
      | cons first' rest' =>
          rcases cons.inj same with ⟨rfl, sameRest⟩
          obtain ⟨rfl, sameRight⟩ :=
            ih (not_mem_of_not_mem_cons fresh) (not_mem_of_not_mem_cons fresh') sameRest
          exact ⟨rfl, sameRight⟩

/-- A list is cut in one way at the last place where an element stands. -/
theorem append_cons_inj_of_not_mem_right (fresh : a ∉ right) (fresh' : a ∉ right')
    (same : left ++ a :: right = left' ++ a :: right') : left = left' ∧ right = right' := by
  have reversed := congrArg reverse same
  simp only [reverse_append, reverse_cons, append_assoc, singleton_append] at reversed
  obtain ⟨sameRight, sameLeft⟩ := append_cons_inj_of_not_mem_left
    (mt mem_reverse.mp fresh) (mt mem_reverse.mp fresh') reversed
  exact ⟨reverse_injective sameLeft, reverse_injective sameRight⟩

end List

namespace BridgeMethods

open Text

theorem Text.joinWith_cons_cons (separator text next : String) (rest : List String) :
    joinWith separator (text :: next :: rest) =
      text ++ separator ++ joinWith separator (next :: rest) :=
  rfl

theorem Text.mem_joinWith {separator : String} {c : Char} {texts : List String}
    (member : c ∈ (joinWith separator texts).toList) :
    c ∈ separator.toList ∨ ∃ text ∈ texts, c ∈ text.toList := by
  induction texts with
  | nil => cases member
  | cons text rest ih =>
      cases rest with
      | nil => exact .inr ⟨text, List.mem_cons_self, member⟩
      | cons next rest =>
          rw [joinWith_cons_cons, String.toList_append, String.toList_append, List.mem_append,
            List.mem_append] at member
          rcases member with (member | member) | member
          · exact .inr ⟨text, List.mem_cons_self, member⟩
          · exact .inl member
          · refine (ih member).imp_right ?_
            rintro ⟨other, otherMember, member⟩
            exact ⟨other, List.mem_cons_of_mem text otherMember, member⟩

theorem IsErasedName.space_not_mem {erased : String} (isErasedName : IsErasedName erased) :
    ' ' ∉ erased.toList :=
  isErasedName.not_mem (by decide) (by decide)

theorem IsErasedName.comma_not_mem {erased : String} (isErasedName : IsErasedName erased) :
    ',' ∉ erased.toList :=
  isErasedName.not_mem (by decide) (by decide)

theorem IsErasedName.parenthesis_not_mem {erased : String} (isErasedName : IsErasedName erased) :
    '(' ∉ erased.toList :=
  isErasedName.not_mem (by decide) (by decide)

/-- With one more separator at the end, each text is followed by one. -/
theorem Text.toList_joinWith_append (separator text : String) (rest : List String) :
    (joinWith separator (text :: rest)).toList ++ separator.toList =
      (text :: rest).flatMap fun t => t.toList ++ separator.toList := by
  induction rest generalizing text with
  | nil => simp [joinWith]
  | cons next rest ih =>
      rw [joinWith_cons_cons, String.toList_append, String.toList_append, List.append_assoc,
        ih next]
      rfl

private theorem flatMap_separated_injective {names names' : List String}
    (areNames : ∀ name ∈ names, IsErasedName name)
    (areNames' : ∀ name ∈ names', IsErasedName name)
    (same : (names.flatMap fun name => name.toList ++ [',', ' ']) =
      names'.flatMap fun name => name.toList ++ [',', ' ']) : names = names' := by
  induction names generalizing names' with
  | nil =>
      cases names' with
      | nil => rfl
      | cons name' rest' => simp at same
  | cons name rest ih =>
      cases names' with
      | nil => simp at same
      | cons name' rest' =>
          rw [List.forall_mem_cons] at areNames areNames'
          simp only [List.flatMap_cons, List.append_assoc, List.cons_append,
            List.nil_append] at same
          obtain ⟨sameName, sameRest⟩ := List.append_cons_inj_of_not_mem_left
            areNames.1.comma_not_mem areNames'.1.comma_not_mem same
          rw [String.toList_inj.mp sameName,
            ih areNames.2 areNames'.2 (List.cons.inj sameRest).2]

private theorem joinWith_ne_empty {name : String} {rest : List String}
    (isErasedName : IsErasedName name) : joinWith ", " (name :: rest) ≠ "" := by
  intro empty
  have closed := toList_joinWith_append ", " name rest
  rw [empty, List.flatMap_cons, List.append_assoc] at closed
  have nameEmpty : [] = name.toList := by
    exact (List.append_cons_inj_of_not_mem_left List.not_mem_nil isErasedName.comma_not_mem
      closed).1
  exact isErasedName.toList_ne_nil nameEmpty.symm

/-- A list of erased names can be read off its written form. -/
theorem joinWith_injective_of_isErasedName {names names' : List String}
    (areNames : ∀ name ∈ names, IsErasedName name)
    (areNames' : ∀ name ∈ names', IsErasedName name)
    (same : joinWith ", " names = joinWith ", " names') : names = names' := by
  cases names with
  | nil =>
      cases names' with
      | nil => rfl
      | cons name' rest' =>
          exact absurd same.symm (joinWith_ne_empty (areNames' name' List.mem_cons_self))
  | cons name rest =>
      cases names' with
      | nil => exact absurd same (joinWith_ne_empty (areNames name List.mem_cons_self))
      | cons name' rest' =>
          apply flatMap_separated_injective areNames areNames'
          have closed := toList_joinWith_append ", " name rest
          rw [same, toList_joinWith_append] at closed
          exact closed.symm

/-! ## Signatures -/

namespace MethodView

/-- The types in the signature are erased names. -/
structure TypesErased (method : MethodView) : Prop where
  returnType : IsErasedName method.returnType
  parameterTypes : ∀ erased ∈ method.parameterTypes, IsErasedName erased

theorem toList_signature (method : MethodView) :
    method.signature.toList = method.returnType.toList ++ ' ' :: (method.internalName.toList ++
      '(' :: ((joinWith ", " method.parameterTypes).toList ++ [')'])) := by
  simp [signature]

theorem TypesErased.parenthesis_not_mem {method : MethodView} (typesErased : method.TypesErased) :
    '(' ∉ (joinWith ", " method.parameterTypes).toList ++ [')'] := by
  intro member
  rcases List.mem_append.mp member with member | member
  · rcases mem_joinWith member with member | ⟨erased, erasedMember, member⟩
    · revert member
      decide
    · exact (typesErased.parameterTypes erased erasedMember).parenthesis_not_mem member
  · revert member
    decide

/-- Methods with one signature have one token. -/
theorem token_eq_of_signature_eq {method other : MethodView} (typesErased : method.TypesErased)
    (otherErased : other.TypesErased) (same : method.signature = other.signature) :
    method.token = other.token := by
  have sameChars := congrArg String.toList same
  rw [toList_signature, toList_signature] at sameChars
  obtain ⟨sameReturn, sameRest⟩ := List.append_cons_inj_of_not_mem_left
    typesErased.returnType.space_not_mem otherErased.returnType.space_not_mem sameChars
  obtain ⟨sameName, sameParameters⟩ := List.append_cons_inj_of_not_mem_right
    typesErased.parenthesis_not_mem otherErased.parenthesis_not_mem sameRest
  have sameJoined := String.toList_inj.mp (List.append_cancel_right sameParameters)
  rw [token, token, String.toList_inj.mp sameReturn, String.toList_inj.mp sameName,
    joinWith_injective_of_isErasedName typesErased.parameterTypes otherErased.parameterTypes
      sameJoined]

end MethodView

theorem TypeView.Sound.typesErased {view : TypeView} (sound : view.Sound) {method : MethodView}
    (member : method ∈ view.methods) : method.TypesErased :=
  ⟨sound.returnType member, sound.parameterTypes member⟩

namespace ClassPool

variable {pool : ClassPool} {definitions : List ClassDef} {entry : ClassEntry}

theorem signatures_nodup (means : pool.Means definitions) (consistent : pool.Consistent)
    (member : entry ∈ pool.classes) :
    ((TypeView.declaration entry).methods.map (·.signature)).Nodup := by
  have sound := means.sound (.declaration member)
  have tokens := List.pairwise_map.mp (consistent.tokensDistinct entry member)
  refine List.pairwise_map.mpr (tokens.imp_of_mem ?_)
  intro method other methodMember otherMember different same
  exact different (MethodView.token_eq_of_signature_eq (sound.typesErased methodMember)
    (sound.typesErased otherMember) same)

theorem find?_eq_some (distinct : (pool.classes.map (·.name)).Nodup)
    (member : entry ∈ pool.classes) : pool.find? entry.name = some (.declaration entry) := by
  rw [find?, (lookup?_eq_some_iff distinct).mpr ⟨member, rfl⟩, Option.map_some]

/-- A method is found by just its signature. -/
theorem findMethod?_eq_some_iff (means : pool.Means definitions) (consistent : pool.Consistent)
    (member : entry ∈ pool.classes) {signature : String} {method : MethodView} :
    pool.findMethod? entry.name signature = some method ↔
      method ∈ (TypeView.declaration entry).methods ∧ method.signature = signature := by
  rw [findMethod?, find?_eq_some means.names_nodup member, Option.bind_some]
  exact List.find?_key_eq_some_iff (signatures_nodup means consistent member)

theorem keys_nodup (means : pool.Means definitions) (consistent : pool.Consistent) :
    (pool.methods.map fun method => (method.owner.name, method.signature)).Nodup := by
  rw [methods, types, List.flatMap_map, List.map_flatMap, List.nodup_flatMap]
  constructor
  · intro entry member
    apply List.Nodup.of_map Prod.snd
    rw [List.map_map]
    exact signatures_nodup means consistent member
  · have names := List.pairwise_map.mp means.names_nodup
    refine names.imp fun different => ?_
    rintro key member otherMember
    rcases List.mem_map.mp member with ⟨method, methodMember, rfl⟩
    rcases List.mem_map.mp otherMember with ⟨other, otherMember, same⟩
    have sameName := congrArg Prod.fst same
    rw [TypeView.owner_of_mem_methods methodMember,
      TypeView.owner_of_mem_methods otherMember] at sameName
    exact different sameName.symm

/-- Reports are about different methods, whichever of them are made. -/
theorem reports_nodup (means : pool.Means definitions) (consistent : pool.Consistent)
    {settings : ClassificationSettings} {parallel : ParallelSettings} {threads : ThreadStart}
    {reports : List MethodReport}
    (classified : pool.classify settings parallel threads = .ok reports) :
    (reports.map fun report => (report.typeName, report.signature)).Nodup := by
  rcases Except.bind_eq_ok_iff.mp classified with ⟨selected, _, classified⟩
  rcases Except.bind_eq_ok_iff.mp classified with ⟨_, _, classified⟩
  cases classified
  have sublist := (List.filter_sublist
    (p := fun report => settings.includeUnmatched || !report.sorts.isEmpty)
    (l := pool.methods.map (MethodReport.ofMethod pool selected))).map
      fun report => (report.typeName, report.signature)
  apply List.Nodup.sublist sublist
  rw [List.map_map]
  exact keys_nodup means consistent

/-- In a pool that is accepted, the name of a type and a signature are the key of a method: the
method is found by it and nothing else is, and reports never share it.  That is so because the
signature of a method, seen through any view of any accepted pool, determines its token. -/
theorem signature_is_key (accepted : ofDefinitions definitions = .ok pool) :
    (∀ entry ∈ pool.classes, ∀ method ∈ (TypeView.declaration entry).methods,
      pool.findMethod? entry.name method.signature = some method) ∧
    (∀ entry ∈ pool.classes, ∀ text,
      (∀ method ∈ (TypeView.declaration entry).methods, method.signature ≠ text) →
        pool.findMethod? entry.name text = none) ∧
    (∀ settings parallel threads reports, pool.classify settings parallel threads = .ok reports →
      (reports.map fun report => (report.typeName, report.signature)).Nodup) ∧
    (∀ otherDefinitions other, ofDefinitions otherDefinitions = .ok other →
      ∀ view otherView, pool.Reachable view → other.Reachable otherView →
        ∀ method ∈ view.methods, ∀ otherMethod ∈ otherView.methods,
          method.signature = otherMethod.signature → method.token = otherMethod.token) := by
  rcases ofDefinitions_eq_ok_iff.mp accepted with ⟨means, consistent⟩
  refine ⟨fun entry member method methodMember => ?_, fun entry member text unused => ?_,
    fun _ _ _ _ => reports_nodup means consistent, ?_⟩
  · exact (findMethod?_eq_some_iff means consistent member).mpr ⟨methodMember, rfl⟩
  · cases found : pool.findMethod? entry.name text with
    | none => rfl
    | some method =>
        rcases (findMethod?_eq_some_iff means consistent member).mp found with ⟨methodMember, same⟩
        exact absurd same (unused method methodMember)
  · intro otherDefinitions other otherAccepted view otherView reachable otherReachable
      method methodMember otherMethod otherMember
    rcases ofDefinitions_eq_ok_iff.mp otherAccepted with ⟨otherMeans, _⟩
    exact MethodView.token_eq_of_signature_eq ((means.sound reachable).typesErased methodMember)
      ((otherMeans.sound otherReachable).typesErased otherMember)

theorem signature_is_key_scenario :
    ∃ pool, ofDefinitions Scenario.covariantReturn = .ok pool ∧
      ∃ entry ∈ pool.classes, ∃ method ∈ (TypeView.declaration entry).methods,
        pool.findMethod? entry.name method.signature = some method ∧
        pool.findMethod? entry.name "int get()" = none ∧
        (∃ reports, pool.classify {} = .ok reports ∧
          (reports.map fun report => (report.typeName, report.signature)).Nodup) ∧
        ∃ parent, pool.superType? (.declaration entry) = some parent ∧
          ∃ inherited ∈ parent.methods, inherited.signature = method.signature ∧
            inherited.token = method.token := by
  obtain ⟨pool, accepted, entry, member, method, methodMember, unused, reports, classified, parent,
      above, inherited, inheritedMember, same⟩ :
    ∃ pool, ofDefinitions Scenario.covariantReturn = .ok pool ∧
      ∃ entry ∈ pool.classes, ∃ method ∈ (TypeView.declaration entry).methods,
        (∀ other ∈ (TypeView.declaration entry).methods, other.signature ≠ "int get()") ∧
        ∃ reports, pool.classify {} = .ok reports ∧
        ∃ parent, pool.superType? (.declaration entry) = some parent ∧
          ∃ inherited ∈ parent.methods, inherited.signature = method.signature :=
    ⟨_, rfl, _, List.mem_cons_of_mem _ List.mem_cons_self, _,
      List.mem_cons_of_mem _ List.mem_cons_self, by decide +kernel, _, rfl, _, rfl, _,
      List.mem_cons_of_mem _ List.mem_cons_self, by decide +kernel⟩
  rcases signature_is_key accepted with ⟨finds, findsNothing, reportsNodup, sameToken⟩
  exact ⟨pool, accepted, entry, member, method, methodMember, finds entry member method methodMember,
    findsNothing entry member "int get()" unused,
    ⟨reports, classified, reportsNodup {} .sequential .unlimited reports classified⟩, parent, above, inherited,
    inheritedMember, same,
    sameToken _ pool accepted _ _ (.superType (.declaration member) above) (.declaration member)
      inherited inheritedMember method methodMember same⟩

end ClassPool

end BridgeMethods
