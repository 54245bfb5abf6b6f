/-
This file says which requests a program makes, and what it means to carry out several programs
side by side. A program asks for nothing but what is allowed if it does so whatever the replies
are, so what is shown here of a program holds in every world, and also if other programs change
the world between two of its requests.
-/

import FilterLists.Proofs.Files.Access

namespace FilterLists

variable {α β : Type} {allowed : Request → Prop}

/-! ### Programs -/

/-- Whether a program asks for nothing but what is allowed. -/
inductive Program.Asks (allowed : Request → Prop) : Program α → Prop
  | done (value : α) : Asks allowed (.done value)
  | ask {request : Request} {next : request.Reply → Program α} :
    allowed request → (∀ reply, Asks allowed (next reply)) → Asks allowed (.ask request next)

namespace Program

theorem asks_pure (value : α) : (pure value : Program α).Asks allowed :=
  .done value

theorem asks_request {request : Request} (isAllowed : allowed request) :
    (Program.request request).Asks allowed :=
  .ask isAllowed .done

theorem Asks.bind {program : Program α} {next : α → Program β} (first : program.Asks allowed)
    (later : ∀ value, (next value).Asks allowed) : (program >>= next).Asks allowed := by
  show (program.bind next).Asks allowed
  induction first with
  | done value => exact later value
  | ask isAllowed _ inductionHypothesis => exact .ask isAllowed inductionHypothesis

theorem Asks.mono {program : Program α} {other : Request → Prop} (asks : program.Asks allowed)
    (weaker : ∀ request, allowed request → other request) : program.Asks other := by
  induction asks with
  | done value => exact .done value
  | ask isAllowed _ inductionHypothesis => exact .ask (weaker _ isAllowed) inductionHypothesis

theorem asks_noteAll (isAllowed : ∀ entry, allowed (.note entry)) (entries : List Journal.Entry) :
    (noteAll entries).Asks allowed := by
  unfold noteAll
  induction entries with
  | nil => exact asks_pure ()
  | cons entry rest inductionHypothesis =>
    exact (asks_request (isAllowed entry)).bind fun _ => inductionHypothesis

/-! ### Programs in a world -/

/-- What a program asks for in a world, in order. -/
def requests : Program α → World → List Request
  | done _, _ => []
  | ask request next, world =>
    request :: (next (world.answer request).1).requests (world.answer request).2

/-- Whether a program, carried out in a world, ends with a value and leaves a world behind, and asks
for certain things on the way. -/
structure Performs (program : Program α) (world : World) (value : α) (after : World)
    (asked : List Request) : Prop where
  run_eq : program.run world = (value, after)
  requests_eq : program.requests world = asked

theorem performs_pure (value : α) (world : World) :
    (pure value : Program α).Performs world value world [] :=
  ⟨rfl, rfl⟩

theorem performs_request {request : Request} {world after : World} {reply : request.Reply}
    (answered : world.answer request = (reply, after)) :
    (Program.request request).Performs world reply after [request] :=
  ⟨answered, rfl⟩

theorem requests_bind (program : Program α) (next : α → Program β) (world : World) :
    (program >>= next).requests world =
      program.requests world ++ (next (program.run world).1).requests (program.run world).2 := by
  show (program.bind next).requests world = _
  induction program generalizing world with
  | done value => rfl
  | ask request goOn inductionHypothesis =>
    exact congrArg (request :: ·) (inductionHypothesis _ _)

theorem Performs.bind {program : Program α} {next : α → Program β} {world between after : World}
    {value : α} {result : β} {asked askedLater : List Request}
    (first : program.Performs world value between asked)
    (later : (next value).Performs between result after askedLater) :
    (program >>= next).Performs world result after (asked ++ askedLater) where
  run_eq := by rw [run_bind, first.run_eq, later.run_eq]
  requests_eq := by rw [requests_bind, first.run_eq, first.requests_eq, later.requests_eq]

/-! ### Programs side by side -/

variable {names : List String} {programs : String → Program α} {world : World}
  {values : String → α} {name other : String}

/-- Programs for names, with another program for one of them. -/
def replace (programs : String → Program α) (name : String) (program : Program α) :
    String → Program α :=
  fun other => if other = name then program else programs other

@[simp] theorem replace_same (programs : String → Program α) (name : String)
    (program : Program α) : replace programs name program name = program :=
  if_pos rfl

theorem replace_of_ne (different : other ≠ name) (program : Program α) :
    replace programs name program other = programs other :=
  if_neg different

theorem replace_replace (programs : String → Program α) (name : String)
    (first second : Program α) :
    replace (replace programs name first) name second = replace programs name second := by
  funext other
  unfold replace
  split <;> rfl

/-- Whether programs, one for each of some names, can be carried out side by side in a world so
that they end with certain values. At each step any program that is not done makes one request. -/
inductive Interleaved (names : List String) :
    (String → Program α) → World → (String → α) → Prop
  | done {programs : String → Program α} {world : World} {values : String → α} :
    (∀ name ∈ names, programs name = .done (values name)) →
    Interleaved names programs world values
  | step {programs : String → Program α} {world : World} {values : String → α} {name : String}
      {request : Request} {next : request.Reply → Program α} :
    name ∈ names → programs name = .ask request next →
    Interleaved names (replace programs name (next (world.answer request).1))
      (world.answer request).2 values →
    Interleaved names programs world values

/-- One of the programs can be carried out to its end before the others go on. -/
theorem Interleaved.of_run (member : name ∈ names)
    (later : Interleaved names (replace programs name (.done ((programs name).run world).1))
      ((programs name).run world).2 values) : Interleaved names programs world values := by
  induction isProgram : programs name generalizing programs world with
  | done value =>
    rw [isProgram] at later
    have unchanged : replace programs name (.done value) = programs := by
      funext other
      by_cases same : other = name
      · rw [same, replace_same, isProgram]
      · rw [replace_of_ne same]
    exact unchanged ▸ later
  | ask request next inductionHypothesis =>
    rw [isProgram] at later
    refine .step member isProgram (inductionHypothesis _ ?_ (replace_same _ _ _))
    rw [replace_same, replace_replace]
    exact later

end Program

/-! ### Jobs -/

/-- Whether a job asks for nothing but what is allowed. -/
def Job.Asks (allowed : Request → Prop) (job : Job α) : Prop :=
  Program.Asks allowed (ExceptT.run job)

namespace Job

theorem asks_pure (value : α) : Job.Asks allowed (pure value) :=
  .done _

theorem Asks.bind {job : Job α} {next : α → Job β} (first : job.Asks allowed)
    (later : ∀ value, (next value).Asks allowed) : (job >>= next).Asks allowed := by
  refine Program.Asks.bind first fun outcome => ?_
  cases outcome with
  | ok value => exact later value
  | error failure => exact .done _

theorem asks_lift {program : Program α} (asks : program.Asks allowed) :
    Job.Asks allowed (ExceptT.lift program) := by
  show Program.Asks allowed (Except.ok <$> program)
  rw [← bind_pure_comp]
  exact asks.bind fun value => .done _

theorem asks_noteAll (isAllowed : ∀ entry, allowed (.note entry)) (entries : List Journal.Entry) :
    (noteAll entries).Asks allowed :=
  asks_lift (Program.asks_noteAll isAllowed entries)

theorem asks_ofExcept {ε : Type} (failure : ε → Failure) (outcome : Except ε α) :
    (ofExcept failure outcome).Asks allowed := by
  cases outcome <;> exact .done _

theorem asks_ofOption (failure : Failure) (outcome : Option α) :
    (ofOption failure outcome).Asks allowed := by
  cases outcome <;> exact .done _

end Job

/-! ### Files -/

namespace Files

variable {path : String}

theorem asks_isPresent (isAllowed : allowed (.inspect path)) : (isPresent path).Asks allowed := by
  refine (Program.asks_request isAllowed).bind fun reply => ?_
  cases reply <;> exact .done _

theorem asks_isDirectory (isAllowed : allowed (.inspect path)) :
    (isDirectory path).Asks allowed := by
  refine (Program.asks_request isAllowed).bind fun reply => ?_
  cases reply <;> exact .done _

theorem asks_settle (isAllowed : allowed (.inspect path)) (outcome : Except Cause Unit) :
    (createDirectories.settle path outcome).Asks allowed := by
  cases outcome with
  | ok _ => exact .done _
  | error cause =>
    refine (asks_isDirectory isAllowed).bind fun answer => ?_
    cases answer <;> exact .done _

theorem asks_createDirectories {directories : List String}
    (isAllowed : ∀ directory ∈ directories,
      allowed (.createDirectory directory) ∧ allowed (.inspect directory)) :
    (createDirectories directories).Asks allowed := by
  induction directories with
  | nil => exact .done _
  | cons path parents inductionHypothesis =>
    obtain ⟨create, inspect⟩ := isAllowed path List.mem_cons_self
    have parentsAsk := inductionHypothesis fun directory member =>
      isAllowed directory (List.mem_cons_of_mem _ member)
    refine (Program.asks_request create).bind fun reply => ?_
    split
    · exact .done _
    · refine parentsAsk.bind fun outcome => ?_
      cases outcome with
      | error cause => exact .done _
      | ok _ =>
        exact (Program.asks_request create).bind fun outcome => asks_settle inspect outcome
    · exact asks_settle inspect _

theorem asks_load (isAllowed : allowed (.read path)) : (load path).Asks allowed := by
  refine Job.Asks.bind (Job.asks_lift (Program.asks_request isAllowed)) fun outcome => ?_
  exact Job.asks_ofExcept _ outcome

theorem asks_save {content : String} (isAllowed : allowed (.write path content))
    (onWay : ∀ directory ∈ Path.ancestors path,
      allowed (.createDirectory directory) ∧ allowed (.inspect directory)) :
    (save path content).Asks allowed := by
  have saves : (save? path content).Asks allowed := by
    refine (asks_createDirectories onWay).bind fun outcome => ?_
    cases outcome with
    | error cause => exact .done _
    | ok _ => exact Program.asks_request isAllowed
  exact Job.Asks.bind (Job.asks_lift saves) fun outcome => Job.asks_ofExcept _ outcome

end Files

end FilterLists
