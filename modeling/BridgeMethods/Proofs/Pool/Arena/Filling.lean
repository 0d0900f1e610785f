import BridgeMethods.Definition.Scenario
import BridgeMethods.Proofs.Pool.Arena.Numbering

/-!
# Filling an arena

The arena that is built of a list of definitions is the arena of their pool, and a list that is
refused is refused with the same error; no number ever leads nowhere on the way.

The two passes go through the stages in which some classes are complete and of the others there is
only a header.  One step completes one class, and its methods get the numbers that follow those of
the classes before it.
-/

namespace BridgeMethods.Arena

/-! ## Reading definitions -/

theorem accept_pure {α : Type} (a : α) : accept (pure a) = pure a :=
  rfl

theorem accept_map {α β : Type} (f : α → β) (result : Except Error α) :
    accept (f <$> result) = f <$> accept result := by
  cases result <;> rfl

theorem accept_bind {α β : Type} (result : Except Error α) (next : α → Except Error β) :
    accept (result >>= next) = accept result >>= fun a => accept (next a) := by
  cases result <;> rfl

/-- Where reading goes well, what follows may use what has been read. -/
theorem bind_accept_congr {α β : Type} {result : Except Error α} {next other : α → Except Failure β}
    (same : ∀ a, result = .ok a → next a = other a) :
    accept result >>= next = accept result >>= other := by
  cases result with
  | error error => rfl
  | ok a => exact same a rfl

/-! ## Stages -/

/-- An arena that is being filled.  The first classes are complete, of the others only the headers
are stored. -/
def stage (completed : List ClassEntry) (pending : List ClassHeader) : Arena where
  classes := ClassRecord.numbered 0 completed ++ pending.map .ofHeader
  methods := completed.flatMap (·.methods)
  numbers := (completed.map (·.name) ++ pending.map (·.name)).zipIdx

theorem stage_nil (entries : List ClassEntry) : stage entries [] = ofPool ⟨entries⟩ := by
  rw [stage, ofPool, List.map_nil, List.map_nil, List.append_nil, List.append_nil]

theorem map_toClassHeader_stage (completed : List ClassEntry) (pending : List ClassHeader) :
    (stage completed pending).classes.map (·.toClassHeader) =
      completed.map (·.toClassHeader) ++ pending := by
  have bare : (pending.map ClassRecord.ofHeader).map (·.toClassHeader) = pending := by
    rw [List.map_map]
    exact List.map_id pending
  rw [stage, List.map_append, ClassRecord.map_toClassHeader_numbered, bare]

/-- At every stage the table leads to the first header that has the name. -/
theorem header?_stage (completed : List ClassEntry) (pending : List ClassHeader) (name : String) :
    (stage completed pending).header? name =
      .ok ((completed.map (·.toClassHeader) ++ pending).find? (·.name = name)) := by
  have table : (stage completed pending).numbers =
      ((completed.map (·.toClassHeader) ++ pending).map (·.name)).zipIdx := by
    rw [List.map_append, List.map_map]
    rfl
  rw [header?, List.find?_key_eq_bind_lookup_zipIdx, ← table]
  cases listed : (stage completed pending).numbers.lookup name with
  | none => rfl
  | some number =>
      rw [table] at listed
      have stands := List.getElem?_of_lookup_zipIdx listed
      rw [List.getElem?_map, Option.map_eq_some_iff] at stands
      obtain ⟨header, stands, _⟩ := stands
      rw [Option.bind_some, stands]
      rw [← map_toClassHeader_stage, List.getElem?_map, Option.map_eq_some_iff] at stands
      obtain ⟨record, found, rfl⟩ := stands
      have recordFound : (stage completed pending).classAt number = .ok record :=
        follow_eq_ok_iff.mpr found
      simp only [recordFound]
      rfl

theorem classAt_stage (completed : List ClassEntry) (header : ClassHeader)
    (pending : List ClassHeader) :
    (stage completed (header :: pending)).classAt completed.length = .ok (.ofHeader header) := by
  simp [classAt, follow, stage, ClassRecord.length_numbered]

/-! ## Super classes -/

/-- One header is enough to check an expression, if it is the one that the expression leads to. -/
theorem superReferenceOf_find? (headers : List ClassHeader) (className : String) (t : TypeExpr) :
    ClassHeader.superReferenceOf
        (t.headName?.bind fun name => headers.find? (·.name = name)).toList className t =
      ClassHeader.superReferenceOf headers className t := by
  have named_find? (name : String) :
      ClassHeader.named (headers.find? (·.name = name)).toList name =
        ClassHeader.named headers name := by
    rw [ClassHeader.named, ClassHeader.named]
    cases found : headers.find? (·.name = name) with
    | none => rfl
    | some header =>
        have isNamed : header.name = name := by simpa using List.find?_some found
        simp [isNamed]
  cases t with
  | named name =>
      rw [ClassHeader.superReferenceOf_named, ClassHeader.superReferenceOf_named,
        TypeExpr.headName?, Option.bind_some, named_find?]
  | generic head arguments =>
      rw [ClassHeader.superReferenceOf_generic, ClassHeader.superReferenceOf_generic,
        TypeExpr.headName?, Option.bind_some, named_find?]
  | typeVar name | array component | wildcard upper lower => rfl

theorem readSuperReference_eq {arena : Arena} {headers : List ClassHeader}
    (follows : ∀ name, arena.header? name = .ok (headers.find? (·.name = name)))
    (definition : ClassDef) :
    arena.readSuperReference definition =
      accept (ClassHeader.readSuperReference headers definition) := by
  have resolved (t : TypeExpr) : arena.superReferenceOf definition.name t =
      accept (ClassHeader.superReferenceOf headers definition.name t) := by
    rw [superReferenceOf, ← superReferenceOf_find?]
    cases t.headName? with
    | none => rfl
    | some name =>
        simp only [follows]
        rfl
  unfold readSuperReference ClassHeader.readSuperReference
  cases definition.kind with
  | interface => cases definition.extending <;> rfl
  | «class» =>
      cases definition.extending with
      | none => rfl
      | some signature =>
          simp only [resolved, accept_bind]
          rfl

/-! ## Storing the classes -/

theorem run_register (definition : ClassDef) (arena : Arena) :
    (register definition).run arena =
      if (arena.numbers.lookup definition.name).isSome then
        .error (.refused (.duplicateType definition.name))
      else do
        let header ← accept (ClassHeader.ofDefinition definition)
        return ((), { arena with
          classes := arena.classes ++ [ClassRecord.ofHeader header]
          numbers := arena.numbers ++ [(definition.name, arena.classes.length)] }) := by
  simp only [register, StateT.run_bind, StateT.run_get, pure_bind]
  split_ifs
  · rfl
  · simp

/-- A class is stored behind the others, unless its name is taken. -/
theorem run_register_stage (definition : ClassDef) (headers : List ClassHeader) :
    (register definition).run (stage [] headers) =
      if definition.name ∈ headers.map (·.name) then
        .error (.refused (.duplicateType definition.name))
      else do
        let header ← accept (ClassHeader.ofDefinition definition)
        return ((), stage [] (headers ++ [header])) := by
  rw [run_register]
  refine if_congr List.isSome_lookup_zipIdx_iff rfl (bind_accept_congr fun header read => ?_)
  have sameName := (ClassHeader.ofDefinition_eq_ok_iff.mp read).name
  simp [stage, ClassRecord.numbered, List.zipIdx_append, sameName]

/-- The first pass stores the headers of all definitions. -/
theorem run_forM_register (definitions : List ClassDef) (headers : List ClassHeader)
    (taken : List String) (isTaken : ∀ name, name ∈ taken ↔ name ∈ headers.map (·.name)) :
    (forM definitions register).run (stage [] headers) = (do
      let more ← accept (ClassHeader.ofDefinitions taken definitions)
      return ((), stage [] (headers ++ more))) := by
  induction definitions generalizing headers taken with
  | nil =>
      rw [ClassHeader.ofDefinitions, List.forM_nil]
      change _ = Except.ok ((), stage [] (headers ++ []))
      rw [List.append_nil]
      rfl
  | cons definition rest ih =>
      rw [List.forM_cons, StateT.run_bind, run_register_stage, ClassHeader.ofDefinitions,
        if_congr (isTaken definition.name) rfl rfl]
      split_ifs with repeated
      · rfl
      · rw [accept_bind, bind_assoc, bind_assoc]
        refine bind_accept_congr fun header read => ?_
        have sameName := (ClassHeader.ofDefinition_eq_ok_iff.mp read).name
        -- Names are collected in the opposite order to that of the headers.
        have isTaken' : ∀ name, name ∈ definition.name :: taken ↔
            name ∈ (headers ++ [header]).map (·.name) := by
          intro name
          simp [isTaken, sameName, or_comm]
        have restStored := ih (headers ++ [header]) (definition.name :: taken) isTaken'
        simp [restStored, accept_map]

/-! ## Completing the classes -/

theorem run_addMethod {arena : Arena} {number : Nat} {record : ClassRecord}
    (found : arena.classAt number = .ok record) (definition : MethodDef) :
    (addMethod number definition).run arena = (do
      let entry ← accept (record.readMethod definition)
      return (arena.methods.length, { arena with methods := arena.methods ++ [entry] })) := by
  have run : (addMethod number definition).run arena = (do
      let record ← arena.classAt number
      let entry ← accept (record.readMethod definition)
      return (arena.methods.length, { arena with methods := arena.methods ++ [entry] })) := by
    simp [addMethod]
  rw [run, found]
  rfl

/-- The methods of a class get the next numbers in their order. -/
theorem run_mapM_addMethod {number : Nat} {record : ClassRecord} (definitions : List MethodDef)
    (arena : Arena) (found : arena.classAt number = .ok record) :
    (definitions.mapM (addMethod number)).run arena = (do
      let entries ← accept (definitions.mapM record.readMethod)
      return (List.range' arena.methods.length entries.length,
        { arena with methods := arena.methods ++ entries })) := by
  induction definitions generalizing arena with
  | nil => simp [accept_pure]
  | cons definition rest ih =>
      rw [List.mapM_cons, List.mapM_cons, StateT.run_bind, run_addMethod found, accept_bind,
        bind_assoc, bind_assoc]
      refine bind_accept_congr fun entry _ => ?_
      have restAdded := ih { arena with methods := arena.methods ++ [entry] } found
      simp [restAdded, accept_map, List.range'_succ]

theorem run_complete {arena : Arena} {number : Nat} {record : ClassRecord}
    (found : arena.classAt number = .ok record) (definition : ClassDef) :
    (complete definition number).run arena = (do
      let superReference ← arena.readSuperReference definition
      let entries ← accept (definition.methods.mapM record.readMethod)
      return ((), { arena with
        classes := arena.classes.set number
          ⟨record.toClassHeader, superReference, List.range' arena.methods.length entries.length⟩
        methods := arena.methods ++ entries })) := by
  have run : (complete definition number).run arena = (do
      let superReference ← arena.readSuperReference definition
      let (methods, arena) ← (definition.methods.mapM (addMethod number)).run arena
      let record ← arena.classAt number
      return ((), { arena with
        classes := arena.classes.set number
          ⟨record.toClassHeader, superReference, methods⟩ })) := by
    simp [complete]
  rw [run, run_mapM_addMethod definition.methods arena found]
  refine bind_congr fun superReference => ?_
  rw [bind_assoc]
  refine bind_congr fun entries => ?_
  -- The methods of a class are stored before the class is looked up again.
  have stillFound : { arena with methods := arena.methods ++ entries }.classAt number =
      .ok record := found
  simp only [pure_bind, stillFound]
  rfl

/-- The first class that is not complete gets its super class and its methods. -/
theorem run_complete_stage (completed : List ClassEntry) (header : ClassHeader)
    (pending : List ClassHeader) (definition : ClassDef) :
    (complete definition completed.length).run (stage completed (header :: pending)) = (do
      let entry ← accept (header.complete
        (completed.map (·.toClassHeader) ++ header :: pending) definition)
      return ((), stage (completed ++ [entry]) pending)) := by
  have follows := header?_stage completed (header :: pending)
  rw [run_complete (classAt_stage completed header pending), readSuperReference_eq follows,
    ClassHeader.complete]
  simp only [accept_bind, bind_assoc]
  refine bind_congr fun superReference => bind_congr fun entries => ?_
  simp only [accept_pure, pure_bind, stage, ClassRecord.numbered_append, ClassRecord.numbered,
    Nat.zero_add]
  simp [ClassRecord.length_numbered, ClassRecord.ofHeader]

theorem toClassHeader_of_complete {header : ClassHeader} {headers : List ClassHeader}
    {definition : ClassDef} {entry : ClassEntry}
    (completed : header.complete headers definition = .ok entry) :
    entry.toClassHeader = header := by
  rcases Except.bind_eq_ok_iff.mp completed with ⟨reference, _, completed⟩
  rcases Except.bind_eq_ok_iff.mp completed with ⟨entries, _, completed⟩
  cases completed
  rfl

/-- The second pass completes all classes, whose headers stay the same. -/
theorem run_forM_complete (completed : List ClassEntry) (pending : List ClassHeader)
    (definitions : List ClassDef) (sameLength : pending.length = definitions.length) :
    (forM (definitions.zipIdx completed.length) fun (definition, number) =>
        complete definition number).run (stage completed pending) = (do
      let entries ← accept ((pending.zip definitions).mapM fun (header, definition) =>
        header.complete (completed.map (·.toClassHeader) ++ pending) definition)
      return ((), stage (completed ++ entries) [])) := by
  induction pending generalizing completed definitions with
  | nil =>
      obtain rfl := List.length_eq_zero_iff.mp sameLength.symm
      simp [accept_pure]
  | cons header pending ih =>
      cases definitions with
      | nil => contradiction
      | cons definition rest =>
          rw [List.zipIdx_cons, List.forM_cons, StateT.run_bind, run_complete_stage,
            List.zip_cons_cons, List.mapM_cons, accept_bind, bind_assoc, bind_assoc]
          refine bind_accept_congr fun entry read => ?_
          -- The class keeps its header, so the classes after it are completed among the same ones.
          have sameHeader := toClassHeader_of_complete read
          have restCompleted := ih (completed ++ [entry]) rest (Nat.succ.inj sameLength)
          simp only [List.length_append, List.length_singleton] at restCompleted
          simp [restCompleted, accept_map, sameHeader]

/-- Both passes together store the classes that are read of the definitions. -/
theorem run_fill (definitions : List ClassDef) :
    (fill definitions).run ⟨[], [], []⟩ = (do
      let headers ← accept (ClassHeader.ofDefinitions [] definitions)
      let classes ← accept ((headers.zip definitions).mapM fun (header, definition) =>
        header.complete headers definition)
      return ((), ofPool ⟨classes⟩)) := by
  have stored := run_forM_register definitions [] [] (by simp)
  rw [fill, StateT.run_bind]
  change (forM definitions register).run (stage [] []) >>= _ = _
  rw [stored, bind_assoc]
  refine bind_accept_congr fun headers read => ?_
  have sameLength : headers.length = definitions.length :=
    (ClassHeader.ofDefinitions_eq_ok_iff.mp read).2.2.length_eq.symm
  have completed := run_forM_complete [] headers definitions sameLength
  simp only [List.nil_append, List.map_nil, List.length_nil, stage_nil] at completed
  simp only [pure_bind, List.nil_append]
  exact completed

/-! ## Checks -/

/-- A check that fails with an error if there is one. -/
def refuse : Option Error → Except Failure Unit
  | none => .ok ()
  | some error => .error (.refused error)

theorem forM_eq_refuse {α β : Type} {relation : α → β → Prop} {as : List α} {bs : List β}
    (related : List.Forall₂ relation as bs) {check : α → Except Failure Unit}
    {fault : β → Option Error} (each : ∀ a b, relation a b → check a = refuse (fault b)) :
    forM as check = refuse (bs.findSome? fault) := by
  induction related with
  | nil => rfl
  | @cons a b as bs first _ ih =>
      rw [List.forM_cons, each a b first, List.findSome?_cons]
      cases fault b with
      | none => exact ih
      | some error => rfl

/-- Every class of a pool with the number of its record. -/
theorem forall₂_range_classes (pool : ClassPool) :
    List.Forall₂ (fun number entry => pool.classes[number]? = some entry)
      (List.range (ofPool pool).classes.length) pool.classes := by
  rw [← (forall₂_holds_ofPool pool).length_eq]
  exact List.forall₂_range_getElem? pool.classes

section Checks

variable {pool : ClassPool}

theorem refuseCycle_eq {number : Nat} {entry : ClassEntry}
    (stands : pool.classes[number]? = some entry) :
    (ofPool pool).refuseCycle number = refuse (some (.cyclicHierarchy entry.name)) := by
  obtain ⟨record, found, holds⟩ := exists_classAt stands
  rw [refuseCycle, found, refuse, ← holds.header]
  rfl

/-- In a pool whose classes have distinct names, to meet a number again is to meet a name again. -/
theorem climb_eq (distinct : (pool.classes.map (·.name)).Nodup) {budget : Nat}
    {numbers : List Nat} {names : List String} {number : Nat} {entry : ClassEntry}
    (stands : pool.classes[number]? = some entry)
    (passed : ∀ other otherEntry, pool.classes[other]? = some otherEntry →
      (other ∈ numbers ↔ otherEntry.name ∈ names)) :
    (ofPool pool).climb budget numbers number =
      refuse ((pool.firstRepeated? budget names entry).map .cyclicHierarchy) := by
  induction budget generalizing numbers names number entry with
  | zero => exact refuseCycle_eq stands
  | succ budget ih =>
      rw [climb, ClassPool.firstRepeated?, if_congr (passed number entry stands) rfl rfl]
      split_ifs with repeated
      · exact refuseCycle_eq stands
      · obtain ⟨above, found, related⟩ := exists_superNumber distinct stands
        rw [found]
        generalize pool.superClass? entry = parent at related ⊢
        cases related with
        | none => rfl
        | some parentStands =>
            -- The class has been passed by its number here and by its name there.
            refine ih parentStands fun other otherEntry otherStands => ?_
            rw [List.mem_cons, List.mem_cons, number_eq_iff distinct stands otherStands,
              passed other otherEntry otherStands]

theorem checkAcyclic_eq (distinct : (pool.classes.map (·.name)).Nodup) :
    (ofPool pool).checkAcyclic = refuse (pool.findCycle?.map .cyclicHierarchy) := by
  have size : (ofPool pool).classes.length = pool.size :=
    ClassRecord.length_numbered 0 pool.classes
  rw [checkAcyclic, ClassPool.findCycle?, List.map_findSome?]
  refine forM_eq_refuse (forall₂_range_classes pool) fun number entry stands => ?_
  rw [size]
  exact climb_eq distinct stands (by simp)

/-- The error of a method that is declared twice. -/
def duplicateMethod (method : MethodView) : Error :=
  .duplicateMethod method.owner.name method.signature

theorem checkTokens_eq {handles : List MethodHandle} {methods : List MethodView}
    (shown : List.Forall₂ (fun handle method => (ofPool pool).methodView handle = .ok method)
      handles methods) (seen : List MethodToken) :
    (ofPool pool).checkTokens seen handles =
      refuse ((TypeView.firstRepeatedMethod? seen methods).map duplicateMethod) := by
  induction shown generalizing seen with
  | nil => rfl
  | @cons handle method _ _ first _ ih =>
      rw [checkTokens, first, TypeView.firstRepeatedMethod?]
      by_cases repeated : method.token ∈ seen
      · rw [if_pos repeated]
        exact if_pos repeated
      · rw [if_neg repeated, ← ih]
        exact if_neg repeated

theorem checkMethods_eq (pool : ClassPool) :
    (ofPool pool).checkMethods = refuse (pool.findRepeatedMethod?.map duplicateMethod) := by
  rw [checkMethods, ClassPool.findRepeatedMethod?, ClassPool.types, List.findSome?_map,
    List.map_findSome?]
  refine forM_eq_refuse (forall₂_range_classes pool) fun number entry stands => ?_
  have shows : Shows pool (.declaration number) (.declaration entry) := ⟨stands, rfl⟩
  obtain ⟨handles, found, shown⟩ := shows.exists_methodHandles
  rw [found]
  exact checkTokens_eq shown []

end Checks

/-- The arena of a list of definitions is that of their pool.  Where there is no pool there is no
arena either, for the same error. -/
theorem ofDefinitions_eq (definitions : List ClassDef) :
    ofDefinitions definitions = ofPool <$> accept (ClassPool.ofDefinitions definitions) := by
  rw [ofDefinitions, run_fill, ClassPool.ofDefinitions, accept_bind, map_bind, bind_assoc]
  refine bind_accept_congr fun headers headersRead => ?_
  rw [accept_bind, map_bind, bind_assoc]
  refine bind_accept_congr fun classes classesRead => ?_
  have means := ClassPool.means_iff_completed.mpr ⟨headers, headersRead, classesRead⟩
  simp only [pure_bind, checkAcyclic_eq means.names_nodup, checkMethods_eq]
  cases (ClassPool.mk classes).findCycle? with
  | some name => rfl
  | none =>
      cases (ClassPool.mk classes).findRepeatedMethod? with
      | some method => rfl
      | none => rfl

/-- Accepted definitions are stored in their order, each with its own methods, and no number, no
name of a super class and no handle of their arena leads nowhere.  The arena is that of the pool,
for definitions that are refused no less than for those that are accepted. -/
theorem numbers_lead_to_definitions :
    (∀ definitions, ofDefinitions definitions =
      ofPool <$> accept (ClassPool.ofDefinitions definitions)) ∧
    ∀ definitions pool, ClassPool.ofDefinitions definitions = .ok pool →
      ∃ arena, ofDefinitions definitions = .ok arena ∧
        arena.Represents (ClassPool.withRoot definitions) ∧
        ∀ handle, arena.Reachable handle → ∃ view, arena.Serves pool handle view := by
  refine ⟨ofDefinitions_eq, fun definitions pool accepted => ?_⟩
  have means := (ClassPool.ofDefinitions_eq_ok_iff.mp accepted).1
  have built : ofDefinitions definitions = .ok (ofPool pool) := by
    rw [ofDefinitions_eq, accepted]
    rfl
  refine ⟨ofPool pool, built, represents_ofPool means, fun handle reachable => ?_⟩
  obtain ⟨view, viewReachable, shows⟩ := reachable.exists_shows means.names_nodup
  exact ⟨view, shows.serves means viewReachable⟩

theorem numbers_lead_to_definitions_scenario :
    ∃ pool arena handle, ClassPool.ofDefinitions Scenario.genericParameter = .ok pool ∧
      ofDefinitions Scenario.genericParameter = .ok arena ∧
      arena.classes.map (·.methods) = [[0], [1, 2], []] ∧
      arena.Represents (ClassPool.withRoot Scenario.genericParameter) ∧
      arena.Reachable handle ∧ handle.bindings = [("T", "java.lang.String")] ∧
      ∃ view, arena.Serves pool handle view := by
  obtain ⟨pool, accepted, numbers, length, above⟩ :
      ∃ pool, ClassPool.ofDefinitions Scenario.genericParameter = .ok pool ∧
        (ofPool pool).classes.map (·.methods) = [[0], [1, 2], []] ∧
        1 < (ofPool pool).classes.length ∧
        ((ofPool pool).superType (.declaration 1)).toOption =
          some (some ⟨0, [("T", "java.lang.String")]⟩) :=
    ⟨_, rfl, by decide +kernel, by decide +kernel, by decide +kernel⟩
  obtain ⟨arena, built, represents, serves⟩ := numbers_lead_to_definitions.2 _ pool accepted
  obtain rfl : arena = ofPool pool := by
    have sameArena := built.symm.trans (numbers_lead_to_definitions.1 Scenario.genericParameter)
    rw [accepted] at sameArena
    exact Except.ok.inj sameArena
  have reachable : (ofPool pool).Reachable ⟨0, [("T", "java.lang.String")]⟩ :=
    .superType (.declaration length) (Except.toOption_eq_some_iff.mp above)
  exact ⟨pool, ofPool pool, _, accepted, built, numbers, represents, reachable, rfl,
    serves _ reachable⟩

end BridgeMethods.Arena
