import BridgeMethods.Bridge

/-!
# Reports on the methods of a pool

Classifying a pool gives one report for each declared method, in the order of definitions.  A
report lists those of the selected sorts that the method belongs to; methods that belong to none of
them are left out unless they are asked for.

The work may be shared among threads.  What they report is put together in the order of definitions,
so the reports are the same as those of a single thread; only, a number of threads that is asked for
has to be started, and that can fail.
-/

namespace BridgeMethods

/-- What is said about one declared method. -/
structure MethodReport where
  typeName : String
  signature : String
  modifiers : List Modifier
  sorts : List MethodSort
  deriving DecidableEq, Repr

namespace MethodReport

/-- The report on a method, with respect to the selected sorts. -/
def ofMethod (pool : ClassPool) (selected : List MethodSort) (method : MethodView) :
    MethodReport where
  typeName := method.owner.name
  signature := method.signature
  modifiers := method.flags.modifiers
  sorts := (pool.sortsOf method).filter (· ∈ selected)

/-- Whether the reported method is marked as a bridge. -/
def isBridge (report : MethodReport) : Bool :=
  report.modifiers.contains .bridge

end MethodReport

/-- The number of reported methods, and how many of them belong to each sort that occurs. -/
structure SortCounts where
  methods : Nat
  counts : List (MethodSort × Nat)
  deriving DecidableEq, Repr

/-- The counts of a list of reports, in the order of `MethodSort.all`. -/
def SortCounts.ofReports (reports : List MethodReport) : SortCounts where
  methods := reports.length
  counts := (MethodSort.all.map fun s => (s, (reports.filter (s ∈ ·.sorts)).length)).filter
    fun (_, count) => 0 < count

/-- Which methods a classification reports on. -/
structure ClassificationSettings where
  /-- The names of the selected sorts; all sorts are selected if there is no list. -/
  sorts : Option (List String) := none
  /-- Whether methods that belong to none of the selected sorts are reported. -/
  includeUnmatched : Bool := false
  deriving DecidableEq, Repr

/-- The selected sorts in the order of `MethodSort.all`, each once.  The first name that denotes no
sort is an error. -/
def ClassificationSettings.selectedSorts (settings : ClassificationSettings) :
    Except Error (List MethodSort) :=
  match settings.sorts with
  | none => .ok MethodSort.all
  | some names => do return MethodSort.inOrder (← names.mapM MethodSort.parse)

/-- How much work is done at a time. -/
structure ParallelSettings where
  enabled : Bool := true
  /-- The largest number of worker threads; as many as there are processors if nothing is said. -/
  maxConcurrency : Option Nat := none
  deriving DecidableEq, Repr

/-- What comes of starting a number of worker threads: the reason why they cannot be started, if
there is one. -/
abbrev ThreadStart : Type := Nat → Except String Unit

/-- As many threads are started as anybody asks for. -/
def ThreadStart.unlimited : ThreadStart := fun _ => .ok ()

namespace ParallelSettings

/-- Settings for work that a single thread does. -/
def sequential : ParallelSettings := { enabled := false }

/-- The number of worker threads for a largest number: at least one. -/
def effectiveConcurrency? (settings : ParallelSettings) : Option Nat :=
  settings.maxConcurrency.map (max · 1)

/-- Starts the worker threads that settings ask for.  Threads that are there anyway share the work
if no number of them is given. -/
def startThreads (settings : ParallelSettings) (threads : ThreadStart) : Except Error Unit :=
  if settings.enabled then
    match settings.effectiveConcurrency? with
    | some count =>
        (threads count).mapError fun reason =>
          .configuration ("Failed to build thread pool: " ++ reason)
    | none => .ok ()
  else .ok ()

end ParallelSettings

/-- The reports on the methods of a pool.  One thread makes them unless settings allow more. -/
def ClassPool.classify (pool : ClassPool) (settings : ClassificationSettings)
    (parallel : ParallelSettings := .sequential) (threads : ThreadStart := .unlimited) :
    Except Error (List MethodReport) := do
  let selected ← settings.selectedSorts
  parallel.startThreads threads
  return (pool.methods.map (MethodReport.ofMethod pool selected)).filter fun report =>
    settings.includeUnmatched || !report.sorts.isEmpty

end BridgeMethods
