import Mathlib.Data.List.Basic

/-! Programs that make calls to a world they don't control, and what such a program ensures whatever
the world answers. A setting says which calls a program may make in which world, and how worlds
answer.
-/

namespace RustyPi.Calls

variable {Request Response Result Other World State Failure : Type}

inductive Program (Request Response Result : Type)
  | done (result : Result)
  | call (request : Request) (next : Response → Program Request Response Result)

namespace Program

protected def bind (program : Program Request Response Result)
    (next : Result → Program Request Response Other)
    : Program Request Response Other :=
  match program with
  | .done result => next result
  | .call request rest => .call request (fun response => (rest response).bind next)

instance : Monad (Program Request Response) where
  pure := .done
  bind := .bind

/-- Where a program gets by these answers, if each fits what was asked. -/
def follow (fits : Request → Response → Bool)
    : Program Request Response Result → List Response → Option (Program Request Response Result)
  | program, [] => some program
  | .done _, _ :: _ => none
  | .call request next, response :: rest =>
    if fits request response then (next response).follow fits rest else none

end Program

/-- What calls a program may make, and how a world answers them. -/
structure Setting (World Request Response : Type) where
  allowed : World → Request → Prop
  answers : World → Request → Response → World → Prop

/-- Any call, answered in any way. -/
def Setting.free : Setting Unit Request Response where
  allowed _ _ := True
  answers _ _ _ _ := True

variable {setting : Setting World Request Response}

namespace Program

/-- The program only makes calls that it may, and ends as `ends` allows, whatever the answers. -/
def Ensures (setting : Setting World Request Response) (ends : Result → World → Prop)
    : Program Request Response Result → World → Prop
  | .done result, world => ends result world
  | .call request next, world =>
    setting.allowed world request
    ∧ ∀ response after,
        setting.answers world request response after
        → (next response).Ensures setting ends after

/-- A program gets to another point, in another world, by answers to its calls. -/
inductive Gets (setting : Setting World Request Response)
    : Program Request Response Result → World → Program Request Response Result → World → Prop
  | here (program : Program Request Response Result) (world : World)
    : Gets setting program world program world
  | next {request later response world between after rest}
    (answers : setting.answers world request response between)
    (gets : Gets setting (later response) between rest after)
    : Gets setting (.call request later) world rest after

variable {ends weaker : Result → World → Prop} {program : Program Request Response Result}
  {world : World}

theorem Ensures.mono (ensures : program.Ensures setting ends world)
    (implies : ∀ result after, ends result after → weaker result after)
    : program.Ensures setting weaker world := by
  induction program generalizing world with
  | done result => exact implies result world ensures
  | call request next ih =>
    exact ⟨ensures.1, fun response after answers =>
      ih response (ensures.2 response after answers)⟩

theorem Ensures.bind {next : Result → Program Request Response Other}
    {finally_ : Other → World → Prop}
    (ensures
      : program.Ensures setting
          (fun result after => (next result).Ensures setting finally_ after) world)
    : (program >>= next).Ensures setting finally_ world := by
  induction program generalizing world with
  | done result => exact ensures
  | call request rest ih =>
    exact ⟨ensures.1, fun response after answers =>
      ih response (ensures.2 response after answers)⟩

variable {later : Program Request Response Result} {fits : Request → Response → Bool}

/-- What a program ensures it ensures from every point that it gets to, by induction on the answers.
-/
theorem Ensures.gets {after : World} (ensures : program.Ensures setting ends world)
    (gets : Gets setting program world later after)
    : later.Ensures setting ends after := by
  induction gets with
  | here => exact ensures
  | next answers _ ih => exact ih (ensures.2 _ _ answers)

/-- A program followed by another is done when both are, by induction on the first. -/
theorem Gets.of_bind {next : Result → Program Request Response Other} {result : Other}
    {after : World} (gets : Gets setting (program >>= next) world (.done result) after)
    : ∃ middle between,
        Gets setting program world (.done middle) between
        ∧ Gets setting (next middle) between (.done result) after := by
  induction program generalizing world with
  | done middle => exact ⟨middle, world, .here _ _, gets⟩
  | call request rest ih =>
    cases gets with
    | next answers gets =>
      obtain ⟨middle, between, first, second⟩ := ih _ gets
      exact ⟨middle, between, .next answers first, second⟩

/-- A program gets where answers lead it that the setting allows. By induction on the answers. -/
theorem Gets.of_follow {setting : Setting Unit Request Response}
    (allowed : ∀ request response, fits request response = true
      → setting.answers () request response ()) {responses : List Response}
    (followed : program.follow fits responses = some later)
    : Gets setting program () later () := by
  induction responses generalizing program with
  | nil =>
    cases program <;> cases followed <;> exact .here _ _
  | cons response rest ih =>
    cases program with
    | done result => cases followed
    | call request next =>
      rw [follow, Option.ite_none_right_eq_some] at followed
      exact .next (allowed request response followed.1) (ih followed.2)

/-- Where a program gets by so many calls to a server, if it answers them all. -/
def serve {Server : Type} (reply : Server → Request → Option (Response × Server))
    : Nat → Program Request Response Result → Server
      → Option (Program Request Response Result × Server)
  | 0, program, server => some (program, server)
  | _ + 1, .done _, _ => none
  | count + 1, .call request next, server =>
    (reply server request).bind (fun (response, after) => (next response).serve reply count after)

/-- A program gets where a server leads it that answers like the world. By induction on the calls. -/
theorem Gets.of_serve {Server : Type} {reply : Server → Request → Option (Response × Server)}
    (shown : Server → World)
    (sound : ∀ server request response after, reply server request = some (response, after)
      → setting.answers (shown server) request response (shown after)) {count : Nat}
    {server after : Server} (served : program.serve reply count server = some (later, after))
    : Gets setting program (shown server) later (shown after) := by
  induction count generalizing program server with
  | zero =>
    cases served
    exact .here _ _
  | succ count ih =>
    cases program with
    | done result => cases served
    | call request next =>
      obtain ⟨⟨response, between⟩, replied, served⟩ := Option.bind_eq_some_iff.mp served
      exact .next (sound _ _ _ _ replied) (ih served)

/-- A server that leads a program to a point meeting `check` gets it to one. -/
theorem Gets.of_served {Server : Type} {reply : Server → Request → Option (Response × Server)}
    (shown : Server → World)
    (sound : ∀ server request response after, reply server request = some (response, after)
      → setting.answers (shown server) request response (shown after)) {count : Nat}
    {server : Server} {check : Program Request Response Result × Server → Bool}
    (executed : (program.serve reply count server).any check = true)
    : ∃ later after, Gets setting program (shown server) later (shown after)
        ∧ check (later, after) = true := by
  obtain ⟨⟨later, after⟩, served, checked⟩ := (Option.any_eq_true _ _).mp executed
  exact ⟨later, after, .of_serve shown sound served, checked⟩

/-- Answers that lead a program to a point meeting `check` get it to one. -/
theorem Gets.of_check (setting : Setting Unit Request Response)
    (allowed : ∀ request response, fits request response = true
      → setting.answers () request response ()) {responses : List Response}
    {check : Program Request Response Result → Bool}
    (executed : (program.follow fits responses).any check = true)
    : ∃ later, Gets setting program () later () ∧ check later = true := by
  obtain ⟨later, followed, checked⟩ := (Option.any_eq_true _ _).mp executed
  exact ⟨later, .of_follow allowed followed, checked⟩

end Program

/-- A program that changes a state of its own between its calls. -/
abbrev Walk (State Request Response : Type) := StateT State (Program Request Response)

/-- One that may fail, keeping what it has done to the state. -/
abbrev Attempt (State Request Response Failure : Type) :=
  ExceptT Failure (Walk State Request Response)

/-- What a walk ensures, of its result and the state it ends in. -/
def Ensures (setting : Setting World Request Response) (ends : Result → State → World → Prop)
    (walk : Walk State Request Response Result) (state : State) (world : World)
    : Prop :=
  (walk.run state).Ensures setting (fun (result, state) after => ends result state after) world

variable {state : State} {world : World}

variable {walk : Walk State Request Response Result}
variable {attempt : Attempt State Request Response Failure Result}

theorem Ensures.mono {ends weaker : Result → State → World → Prop}
    (ensures : Ensures setting ends walk state world)
    (implies : ∀ result state after, ends result state after → weaker result state after)
    : Ensures setting weaker walk state world :=
  Program.Ensures.mono ensures (fun (result, state) after => implies result state after)

theorem ensures_pure {ends : Result → State → World → Prop} {result : Result}
    (holds : ends result state world)
    : Ensures setting ends (pure result) state world :=
  holds

theorem ensures_bind {next : Result → Walk State Request Response Other}
    {ends : Other → State → World → Prop}
    (ensures
      : Ensures setting (fun result state after => Ensures setting ends (next result) state after)
          walk state world)
    : Ensures setting ends (walk >>= next) state world :=
  Program.Ensures.bind ensures

theorem ensures_get {ends : State → State → World → Prop} (holds : ends state state world)
    : Ensures setting ends (get : Walk State Request Response State) state world :=
  holds

theorem ensures_set {ends : PUnit → State → World → Prop} {new : State}
    (holds : ends () new world)
    : Ensures setting ends (set new : Walk State Request Response PUnit) state world :=
  holds

theorem ensures_modify {ends : PUnit → State → World → Prop} {change : State → State}
    (holds : ends () (change state) world)
    : Ensures setting ends (modify change : Walk State Request Response PUnit) state world :=
  holds

def ask (request : Request) : Walk State Request Response Response :=
  fun state => .call request (fun response => .done (response, state))

theorem ensures_ask {ends : Response → State → World → Prop} {request : Request}
    (allowed : setting.allowed world request)
    (holds
      : ∀ response after, setting.answers world request response after
          → ends response state after)
    : Ensures setting ends (ask request) state world :=
  ⟨allowed, holds⟩

/-- What holds of a success and of a failure, as one. -/
def outcome (ok : Result → State → World → Prop) (fails : Failure → State → World → Prop)
    : Except Failure Result → State → World → Prop
  | .ok result => ok result
  | .error failure => fails failure

/-- What an attempt ensures if it succeeds, and if it fails. -/
def Tries (setting : Setting World Request Response) (ok : Result → State → World → Prop)
    (fails : Failure → State → World → Prop)
    (attempt : Attempt State Request Response Failure Result) (state : State) (world : World)
    : Prop :=
  Ensures setting (outcome ok fails) attempt.run state world

variable {ok : Result → State → World → Prop} {fails : Failure → State → World → Prop}
  {next : Result → Attempt State Request Response Failure Other}

theorem Tries.mono {ok' : Result → State → World → Prop} {fails' : Failure → State → World → Prop}
    (tries : Tries setting ok fails attempt state world)
    (succeeds : ∀ result state after, ok result state after → ok' result state after)
    (failed : ∀ failure state after, fails failure state after → fails' failure state after)
    : Tries setting ok' fails' attempt state world := by
  refine Ensures.mono tries ?_
  rintro (failure | result) state after holds
  · exact failed failure state after holds
  · exact succeeds result state after holds

theorem tries_pure {result : Result} (holds : ok result state world)
    : Tries setting ok fails
        (pure result : Attempt State Request Response Failure Result) state world :=
  holds

theorem tries_throw {failure : Failure} (holds : fails failure state world)
    : Tries setting ok fails
        (throw failure : Attempt State Request Response Failure Result) state world :=
  holds

theorem tries_bind
    {ok : Other → State → World → Prop}
    (tries
      : Tries setting (fun result state after => Tries setting ok fails (next result) state after)
          fails attempt state world)
    : Tries setting ok fails (attempt >>= next) state world := by
  refine ensures_bind (Ensures.mono tries ?_)
  rintro (failure | result) state after holds
  · exact holds
  · exact holds

/-- An attempt keeps what holds before it, whether or not it succeeds. -/
def Keeps (setting : Setting World Request Response) (holds : State → World → Prop)
    (attempt : Attempt State Request Response Failure Result)
    : Prop :=
  ∀ state world, holds state world
    → Tries setting (fun _ => holds) (fun _ => holds) attempt state world

section Keeps

variable {holds : State → World → Prop}

theorem keeps_pure (result : Result)
    : Keeps setting holds (pure result : Attempt State Request Response Failure Result) :=
  fun _ _ before => tries_pure before

theorem keeps_throw (failure : Failure)
    : Keeps setting holds (throw failure : Attempt State Request Response Failure Result) :=
  fun _ _ before => tries_throw before

/-- What follows an attempt that keeps something starts with it. -/
theorem Keeps.then {attempt : Attempt State Request Response Failure Result}
    {ok : Other → State → World → Prop} (keeps : Keeps setting holds attempt)
    (before : holds state world)
    (failed : ∀ failure state after, holds state after → fails failure state after)
    (next_ : ∀ result state after, holds state after → Tries setting ok fails (next result) state after)
    : Tries setting ok fails (attempt >>= next) state world :=
  tries_bind ((keeps state world before).mono next_ failed)

theorem Keeps.bind {attempt : Attempt State Request Response Failure Result}
    (keeps : Keeps setting holds attempt) (after : ∀ result, Keeps setting holds (next result))
    : Keeps setting holds (attempt >>= next) :=
  fun _ _ before => keeps.then before (fun _ _ _ same => same) (fun result => after result)

end Keeps

/-- A walk that goes on after an attempt in either case. -/
theorem ensures_tried {next : Except Failure Result → Walk State Request Response Other}
    {ends : Other → State → World → Prop}
    (tries
      : Tries setting
          (fun result state after => Ensures setting ends (next (.ok result)) state after)
          (fun failure state after => Ensures setting ends (next (.error failure)) state after)
          attempt state world)
    : Ensures setting ends (attempt.run >>= next) state world := by
  refine ensures_bind (Ensures.mono tries ?_)
  rintro (failure | result) state after holds
  · exact holds
  · exact holds

theorem tries_lift (ensures : Ensures setting ok walk state world)
    : Tries setting ok fails
        (liftM walk : Attempt State Request Response Failure Result) state world := by
  refine Program.Ensures.bind (Program.Ensures.mono ensures ?_)
  rintro ⟨result, state⟩ after holds
  exact holds

end RustyPi.Calls
