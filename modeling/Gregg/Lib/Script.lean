import Mathlib.Data.List.Infix

/-!
# Programs that act on the world

A program as the tree of what it does: it is done with a result, or it performs an action and goes
on with the answer, which is the world's to choose. A judgement says which actions a program may
perform after which history, and what holds when it is done. There is one rule for each way to put
programs together, and a judgement speaks about every run, also about one that is cut short.
-/

inductive Script (Action : Type) (Answer : Action → Type) (Result : Type) where
  | done (result : Result)
  | act (action : Action) (next : Answer action → Script Action Answer Result)

namespace Script

variable {Action : Type} {Answer : Action → Type} {Result Next Failure Other : Type}

/-- An action with the answer to it. -/
abbrev Entry (Answer : Action → Type) : Type :=
  (action : Action) × Answer action

def bind (first : Script Action Answer Result) (next : Result → Script Action Answer Next) :
    Script Action Answer Next :=
  match first with
  | .done result => next result
  | .act action rest => .act action fun answer => (rest answer).bind next

instance : Monad (Script Action Answer) where
  pure := .done
  bind := bind

def perform (action : Action) : Script Action Answer (Answer action) :=
  .act action .done

/-- A program that can fail, with its failures as another program reports them. -/
def mapErr (report : Other → Failure) (script : Script Action Answer (Except Other Result)) :
    ExceptT Failure (Script Action Answer) Result :=
  ExceptT.mk (script >>= fun outcome => pure (outcome.mapError report))

/-- Do the first part, then the second, whether the first failed or not, and report the first. -/
def andThen (first : ExceptT Failure (Script Action Answer) Result)
    (second : Script Action Answer Unit) : ExceptT Failure (Script Action Answer) Result :=
  ExceptT.mk (first.run >>= fun outcome => second >>= fun _ => pure outcome)

/-- Do the first part, and the second only where the first failed. -/
def onError (first : ExceptT Failure (Script Action Answer) Result)
    (second : Script Action Answer Unit) : ExceptT Failure (Script Action Answer) Result :=
  ExceptT.mk (first.run >>= fun outcome =>
    match outcome with
    | .ok result => pure (.ok result)
    | .error failure => second >>= fun _ => pure (.error failure))

section Runs

/-- What a program did when it got to its end, and its result. -/
inductive Runs : Script Action Answer Result → List (Entry Answer) → Result → Prop where
  | done (result : Result) : Runs (.done result) [] result
  | act {action : Action} {next : Answer action → Script Action Answer Result}
      {history : List (Entry Answer)} {result : Result} (answer : Answer action)
      (runs : Runs (next answer) history result) :
      Runs (.act action next) (⟨action, answer⟩ :: history) result

/-- What a program did up to some moment, the end or another. -/
inductive Reaches : Script Action Answer Result → List (Entry Answer) → Prop where
  | stop (script : Script Action Answer Result) : Reaches script []
  | act {action : Action} {next : Answer action → Script Action Answer Result}
      {history : List (Entry Answer)} (answer : Answer action)
      (reaches : Reaches (next answer) history) :
      Reaches (.act action next) (⟨action, answer⟩ :: history)

end Runs

section Meets

/-- From a history on, a program performs allowed actions only, and when it is done, the history
and the result are as they should be. -/
def Meets (allowed : List (Entry Answer) → Action → Prop)
    (post : List (Entry Answer) → Result → Prop) :
    Script Action Answer Result → List (Entry Answer) → Prop
  | .done result, history => post history result
  | .act action next, history =>
      allowed history action ∧
        ∀ answer, (next answer).Meets allowed post (history ++ [⟨action, answer⟩])

variable {allowed : List (Entry Answer) → Action → Prop}
  {post : List (Entry Answer) → Result → Prop} {history : List (Entry Answer)}

theorem meets_bind {first : Script Action Answer Result}
    {next : Result → Script Action Answer Next} {post : List (Entry Answer) → Next → Prop} :
    (first >>= next).Meets allowed post history ↔
      first.Meets allowed (fun later result => (next result).Meets allowed post later) history := by
  induction first generalizing history with
  | done result => exact Iff.rfl
  | act action rest step =>
      apply and_congr_right
      intro _
      exact forall_congr' fun answer => step answer

theorem Meets.imp {script : Script Action Answer Result}
    {before : List (Entry Answer) → Action → Prop} {weaker : List (Entry Answer) → Result → Prop}
    (meets : script.Meets before post history)
    (allows : ∀ later action, history <+: later → before later action → allowed later action)
    (implies : ∀ later result, history <+: later → post later result → weaker later result) :
    script.Meets allowed weaker history := by
  induction script generalizing history with
  | done result => exact implies history result (List.prefix_refl history) meets
  | act action next step =>
      refine ⟨allows history action (List.prefix_refl history) meets.1, ?_⟩
      intro answer
      have longer : history <+: history ++ [⟨action, answer⟩] := List.prefix_append _ _
      apply step answer (meets.2 answer)
      · intro later other extends_
        exact allows later other (longer.trans extends_)
      · intro later result extends_
        exact implies later result (longer.trans extends_)

/-- Where a program got to its end, what the judgement promises holds. -/
theorem Meets.of_runs {script : Script Action Answer Result} {trace : List (Entry Answer)}
    {result : Result} (meets : script.Meets allowed post history)
    (runs : script.Runs trace result) : post (history ++ trace) result := by
  induction runs generalizing history with
  | done result =>
      rw [List.append_nil]
      exact meets
  | act answer _ step => simpa using step (meets.2 answer)

/-- Whatever a program did at any moment was allowed by then. -/
theorem Meets.of_reaches {script : Script Action Answer Result} {before : List (Entry Answer)}
    {last : Entry Answer} (meets : script.Meets allowed post history)
    (reaches : script.Reaches (before ++ [last])) : allowed (history ++ before) last.1 := by
  induction script generalizing history before with
  | done result =>
      cases before with
      | nil => cases reaches
      | cons _ _ => cases reaches
  | act action next step =>
      cases before with
      | nil =>
          cases reaches
          simpa using meets.1
      | cons entry rest =>
          cases reaches with
          | act answer reaches => simpa using step answer (meets.2 answer) reaches

/-- What a judgement about a whole program says of its runs, at every moment and at the end. -/
theorem Meets.everyRun {script : Script Action Answer Result}
    (meets : script.Meets allowed post []) :
    (∀ before action answer, script.Reaches (before ++ [⟨action, answer⟩]) →
        allowed before action) ∧
      ∀ trace result, script.Runs trace result → post trace result := by
  refine ⟨?_, ?_⟩
  · intro before action answer reaches
    exact meets.of_reaches reaches
  · intro trace result runs
    exact meets.of_runs runs

/-- Where whatever is allowed is of some kind, everything that was done is. -/
theorem Meets.performed {script : Script Action Answer Result} {may : Action → Prop}
    (meets : script.Meets allowed post history)
    (implies : ∀ later action, allowed later action → may action)
    (performed : ∀ entry ∈ history, may entry.1) :
    script.Meets allowed
      (fun later result => (∀ entry ∈ later, may entry.1) ∧ post later result) history := by
  induction script generalizing history with
  | done result => exact ⟨performed, meets⟩
  | act action next step =>
      refine ⟨meets.1, ?_⟩
      intro answer
      apply step answer (meets.2 answer)
      intro entry isMember
      rcases List.mem_append.mp isMember with earlier | last
      · exact performed entry earlier
      · rw [List.mem_singleton.mp last]
        exact implies history action meets.1

/-- A judgement about a program by itself holds of it after anything that happened before. -/
theorem Meets.embed {script : Script Action Answer Result}
    {wider : List (Entry Answer) → Action → Prop} {weaker : List (Entry Answer) → Result → Prop}
    {before : List (Entry Answer)} (meets : script.Meets allowed post history)
    (allows : ∀ later action, allowed later action → wider (before ++ later) action)
    (implies : ∀ later result, post later result → weaker (before ++ later) result) :
    script.Meets wider weaker (before ++ history) := by
  induction script generalizing history with
  | done result => exact implies history result meets
  | act action next step =>
      refine ⟨allows history action meets.1, ?_⟩
      intro answer
      rw [List.append_assoc]
      exact step answer (meets.2 answer)

end Meets

/-- How a program that can fail ended, by its two endings. -/
def Settled (failed : List (Entry Answer) → Failure → Prop)
    (succeeded : List (Entry Answer) → Result → Prop) :
    List (Entry Answer) → Except Failure Result → Prop
  | trace, .error failure => failed trace failure
  | trace, .ok result => succeeded trace result

section Attempts

variable {allowed : List (Entry Answer) → Action → Prop} {history : List (Entry Answer)}

theorem meets_run_bind {first : ExceptT Failure (Script Action Answer) Result}
    {next : Result → ExceptT Failure (Script Action Answer) Next}
    {post : List (Entry Answer) → Except Failure Next → Prop} :
    (first >>= next).run.Meets allowed post history ↔
      first.run.Meets allowed
        (Settled (fun later failure => post later (.error failure))
          fun later result => (next result).run.Meets allowed post later) history := by
  have unfolded : (first >>= next).run = first.run >>= ExceptT.bindCont next := rfl
  rw [unfolded, meets_bind]
  have settles : (fun later outcome => (ExceptT.bindCont next outcome).Meets allowed post later) =
      Settled (fun later failure => post later (.error failure))
        fun later result => (next result).run.Meets allowed post later := by
    funext later outcome
    cases outcome with
    | error failure => rfl
    | ok result => rfl
  rw [settles]

theorem meets_run_throw {failure : Failure}
    {post : List (Entry Answer) → Except Failure Result → Prop} :
    (throw failure : ExceptT Failure (Script Action Answer) Result).run.Meets allowed post history ↔
      post history (.error failure) :=
  Iff.rfl

theorem meets_run_lift {script : Script Action Answer Result}
    {post : List (Entry Answer) → Except Failure Result → Prop} :
    (liftM script : ExceptT Failure (Script Action Answer) Result).run.Meets allowed post history ↔
      script.Meets allowed (fun later result => post later (.ok result)) history := by
  have unfolded : (liftM script : ExceptT Failure (Script Action Answer) Result).run =
      script >>= fun result => pure (.ok result) := rfl
  rw [unfolded, meets_bind]
  exact Iff.rfl

theorem meets_run_mapErr {report : Other → Failure}
    {script : Script Action Answer (Except Other Result)}
    {post : List (Entry Answer) → Except Failure Result → Prop} :
    (mapErr report script).run.Meets allowed post history ↔
      script.Meets allowed
        (Settled (fun later other => post later (.error (report other)))
          fun later result => post later (.ok result)) history := by
  have unfolded : (mapErr report script).run =
      script >>= fun outcome => pure (outcome.mapError report) := rfl
  rw [unfolded, meets_bind]
  have settles : (fun later (outcome : Except Other Result) =>
        (pure (outcome.mapError report) : Script Action Answer (Except Failure Result)).Meets
          allowed post later) =
      Settled (fun later other => post later (.error (report other)))
        fun later result => post later (.ok result) := by
    funext later outcome
    cases outcome with
    | error other => rfl
    | ok result => rfl
  rw [settles]

theorem meets_perform {action : Action} {post : List (Entry Answer) → Answer action → Prop} :
    (perform action).Meets allowed post history ↔
      allowed history action ∧ ∀ answer, post (history ++ [⟨action, answer⟩]) answer :=
  Iff.rfl

theorem meets_run_andThen {first : ExceptT Failure (Script Action Answer) Result}
    {second : Script Action Answer Unit}
    {post : List (Entry Answer) → Except Failure Result → Prop} :
    (andThen first second).run.Meets allowed post history ↔
      first.run.Meets allowed
        (fun later outcome => second.Meets allowed (fun last _ => post last outcome) later)
        history := by
  have unfolded : (andThen first second).run =
      first.run >>= fun outcome => second >>= fun _ => pure outcome := rfl
  rw [unfolded, meets_bind]
  simp only [meets_bind]
  exact Iff.rfl

end Attempts

section Does

variable {may : Action → Prop}

/-- What a program does wherever it starts: it performs certain actions only, and what it did and
its result are as they should be. -/
def Does (may : Action → Prop) (script : Script Action Answer Result)
    (spec : List (Entry Answer) → Result → Prop) : Prop :=
  script.Meets (fun _ => may) spec []

/-- Where the allowed actions do not depend on the history, neither does the judgement. -/
theorem meets_append {script : Script Action Answer Result}
    {post : List (Entry Answer) → Result → Prop} {before after : List (Entry Answer)} :
    script.Meets (fun _ => may) post (before ++ after) ↔
      script.Meets (fun _ => may) (fun later => post (before ++ later)) after := by
  induction script generalizing after with
  | done result => exact Iff.rfl
  | act action next step =>
      apply and_congr_right
      intro _
      apply forall_congr'
      intro answer
      rw [List.append_assoc]
      exact step answer

theorem meets_iff_does {script : Script Action Answer Result}
    {post : List (Entry Answer) → Result → Prop} {before : List (Entry Answer)} :
    script.Meets (fun _ => may) post before ↔
      script.Does may fun trace => post (before ++ trace) := by
  have shifted : script.Meets (fun _ => may) post (before ++ []) ↔
      script.Meets (fun _ => may) (fun later => post (before ++ later)) [] :=
    meets_append
  rwa [List.append_nil] at shifted

variable {spec : List (Entry Answer) → Result → Prop}

/-- A program that does its part from anywhere does it inside a larger one. -/
theorem Does.meets {script : Script Action Answer Result}
    {allowed : List (Entry Answer) → Action → Prop}
    {post : List (Entry Answer) → Result → Prop} {history : List (Entry Answer)}
    (does : script.Does may spec)
    (allows : ∀ later action, may action → allowed later action)
    (implies : ∀ trace result, (∀ entry ∈ trace, may entry.1) → spec trace result →
      post (history ++ trace) result) :
    script.Meets allowed post history := by
  have performed := Meets.performed does (fun _ _ isMay => isMay) (by simp)
  have shifted : script.Meets (fun _ => may) post history := by
    rw [meets_iff_does]
    exact performed.imp (fun _ _ _ isMay => isMay) fun trace result _ both =>
      implies trace result both.1 both.2
  exact shifted.imp (fun later action _ => allows later action) fun _ _ _ holds => holds

theorem Does.imp {script : Script Action Answer Result} {before : Action → Prop}
    {weaker : List (Entry Answer) → Result → Prop} (does : script.Does before spec)
    (allows : ∀ action, before action → may action)
    (implies : ∀ trace result, spec trace result → weaker trace result) :
    script.Does may weaker :=
  Meets.imp does (fun _ action _ => allows action) fun trace result _ => implies trace result

theorem Does.performed {script : Script Action Answer Result} (does : script.Does may spec) :
    script.Does may fun trace result => (∀ entry ∈ trace, may entry.1) ∧ spec trace result :=
  Meets.performed does (fun _ _ isMay => isMay) (by simp)

/-- What a program did is itself a run of it. -/
theorem Does.runs {script : Script Action Answer Result} (does : script.Does may spec) :
    script.Does may fun trace result => script.Runs trace result ∧ spec trace result := by
  induction script generalizing spec with
  | done result => exact ⟨.done result, does⟩
  | act action next step =>
      refine ⟨does.1, ?_⟩
      intro answer
      have meets : (next answer).Does may fun trace => spec (⟨action, answer⟩ :: trace) :=
        meets_iff_does.mp (does.2 answer)
      apply meets_iff_does.mpr
      apply (step answer meets).imp fun _ isMay => isMay
      rintro trace result ⟨runs, holds⟩
      exact ⟨.act answer runs, holds⟩

theorem does_bind {first : Script Action Answer Result}
    {next : Result → Script Action Answer Next} {spec : List (Entry Answer) → Next → Prop} :
    (first >>= next).Does may spec ↔
      first.Does may fun before result =>
        (next result).Does may fun after last => spec (before ++ after) last := by
  rw [Does, meets_bind]
  have shifts : (fun later result => (next result).Meets (fun _ => may) spec later) =
      fun before result =>
        (next result).Does may fun after last => spec (before ++ after) last := by
    funext before result
    exact propext meets_iff_does
  rw [shifts]
  exact Iff.rfl

theorem does_pure {result : Result} :
    (pure result : Script Action Answer Result).Does may spec ↔ spec [] result :=
  Iff.rfl

theorem does_perform {action : Action} {spec : List (Entry Answer) → Answer action → Prop} :
    (perform action : Script Action Answer (Answer action)).Does may spec ↔
      may action ∧ ∀ answer, spec [⟨action, answer⟩] answer :=
  Iff.rfl

/-- What a program that can fail does wherever it starts, with an assertion for each ending. -/
def Tries (may : Action → Prop) (attempt : ExceptT Failure (Script Action Answer) Result)
    (failed : List (Entry Answer) → Failure → Prop)
    (succeeded : List (Entry Answer) → Result → Prop) : Prop :=
  attempt.run.Does may (Settled failed succeeded)

variable {failed : List (Entry Answer) → Failure → Prop}
  {succeeded : List (Entry Answer) → Result → Prop}

theorem tries_pure {result : Result} :
    Tries may (pure result : ExceptT Failure (Script Action Answer) Result) failed succeeded ↔
      succeeded [] result :=
  Iff.rfl

theorem tries_throw {failure : Failure} :
    Tries may (throw failure : ExceptT Failure (Script Action Answer) Result) failed succeeded ↔
      failed [] failure :=
  Iff.rfl

theorem tries_bind {first : ExceptT Failure (Script Action Answer) Result}
    {next : Result → ExceptT Failure (Script Action Answer) Next}
    {succeeded : List (Entry Answer) → Next → Prop} :
    Tries may (first >>= next) failed succeeded ↔
      Tries may first failed fun before result =>
        Tries may (next result) (fun after => failed (before ++ after))
          fun after => succeeded (before ++ after) := by
  rw [Tries, Does, meets_run_bind, Tries, Does]
  have shifts : (Settled (fun later failure => Settled failed succeeded later (.error failure))
        fun later result =>
          (next result).run.Meets (fun _ => may) (Settled failed succeeded) later) =
      Settled failed fun before result =>
        Tries may (next result) (fun after => failed (before ++ after))
          fun after => succeeded (before ++ after) := by
    funext before outcome
    cases outcome with
    | error failure => rfl
    | ok result =>
        apply propext
        refine meets_iff_does.trans ?_
        have same : (fun trace => Settled failed succeeded (before ++ trace)) =
            Settled (fun after => failed (before ++ after))
              fun after => succeeded (before ++ after) := by
          funext after last
          cases last with
          | error failure => rfl
          | ok last => rfl
        rw [same]
        exact Iff.rfl
  rw [shifts]

theorem tries_lift {script : Script Action Answer Result} :
    Tries may (liftM script : ExceptT Failure (Script Action Answer) Result) failed succeeded ↔
      script.Does may succeeded :=
  meets_run_lift

theorem tries_mapErr {report : Other → Failure}
    {script : Script Action Answer (Except Other Result)} :
    Tries may (mapErr report script) failed succeeded ↔
      script.Does may (Settled (fun trace other => failed trace (report other)) succeeded) :=
  meets_run_mapErr

theorem tries_andThen {first : ExceptT Failure (Script Action Answer) Result}
    {second : Script Action Answer Unit} :
    Tries may (andThen first second) failed succeeded ↔
      Tries may first
        (fun before failure => second.Does may fun after _ => failed (before ++ after) failure)
        fun before result => second.Does may fun after _ => succeeded (before ++ after) result := by
  have unfolded : (andThen first second).run =
      first.run >>= fun outcome => second >>= fun _ => pure outcome := rfl
  rw [Tries, unfolded, does_bind, Tries]
  have settles : (fun (before : List (Entry Answer)) (outcome : Except Failure Result) =>
        (second >>= fun _ => pure outcome).Does may
          fun after => Settled failed succeeded (before ++ after)) =
      Settled
        (fun before failure => second.Does may fun after _ => failed (before ++ after) failure)
        fun before result => second.Does may fun after _ => succeeded (before ++ after) result := by
    funext before outcome
    cases outcome with
    | error failure => simp [does_bind, does_pure, Settled]
    | ok result => simp [does_bind, does_pure, Settled]
  rw [settles]

theorem tries_onError {first : ExceptT Failure (Script Action Answer) Result}
    {second : Script Action Answer Unit} :
    Tries may (onError first second) failed succeeded ↔
      Tries may first
        (fun before failure => second.Does may fun after _ => failed (before ++ after) failure)
        succeeded := by
  rw [Tries, onError, ExceptT.run_mk, does_bind, Tries]
  have settles : (fun (before : List (Entry Answer)) (outcome : Except Failure Result) =>
        (match outcome with
          | .ok result => pure (.ok result)
          | .error failure => second >>= fun _ => pure (.error failure) :
          Script Action Answer (Except Failure Result)).Does may
          fun after => Settled failed succeeded (before ++ after)) =
      Settled
        (fun before failure => second.Does may fun after _ => failed (before ++ after) failure)
        succeeded := by
    funext before outcome
    cases outcome with
    | error failure => simp [does_bind, does_pure, Settled]
    | ok result => simp [does_pure, Settled]
  rw [settles]

theorem Tries.imp {attempt : ExceptT Failure (Script Action Answer) Result}
    {before : Action → Prop} {failed' : List (Entry Answer) → Failure → Prop}
    {succeeded' : List (Entry Answer) → Result → Prop}
    (tries : Tries before attempt failed succeeded)
    (allows : ∀ action, before action → may action)
    (fails : ∀ trace failure, (∀ entry ∈ trace, before entry.1) → failed trace failure →
      failed' trace failure)
    (succeeds : ∀ trace result, (∀ entry ∈ trace, before entry.1) → succeeded trace result →
      succeeded' trace result) :
    Tries may attempt failed' succeeded' := by
  apply Does.imp (Does.performed tries) allows
  rintro trace outcome ⟨performed, settled⟩
  cases outcome with
  | error failure => exact fails trace failure performed settled
  | ok result => exact succeeds trace result performed settled

/-- A part that can fail, inside a program whose allowed actions depend on the history. -/
theorem Tries.meets {attempt : ExceptT Failure (Script Action Answer) Result}
    {allowed : List (Entry Answer) → Action → Prop}
    {post : List (Entry Answer) → Except Failure Result → Prop} {history : List (Entry Answer)}
    (tries : Tries may attempt failed succeeded)
    (allows : ∀ later action, may action → allowed later action)
    (fails : ∀ trace failure, (∀ entry ∈ trace, may entry.1) → failed trace failure →
      post (history ++ trace) (.error failure))
    (succeeds : ∀ trace result, (∀ entry ∈ trace, may entry.1) → succeeded trace result →
      post (history ++ trace) (.ok result)) :
    attempt.run.Meets allowed post history := by
  apply Does.meets tries allows
  intro trace outcome performed settled
  cases outcome with
  | error failure => exact fails trace failure performed settled
  | ok result => exact succeeds trace result performed settled

end Does

end Script
