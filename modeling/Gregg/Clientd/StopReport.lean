import Gregg.Clientd.Stop

/-!
# What a stop reports

A daemon that accepts a stop and goes away is reported as gone only when nothing is left at any
other candidate path. A socket file of a daemon that crashed earlier stays where it is, and the stop
that was honoured fails.
-/

namespace Gregg.Clientd

variable {Path Snapshot : Type}

/-- An acknowledgement, or the clean disconnect of a daemon that honours a stop. -/
def isAnswer : Except FrontError (FrontendFrame Snapshot) → Bool
  | .ok (.controlAck ..) => true
  | .error .disconnected => true
  | _ => false

def isDocumentReply : Except FrontError (FrontendFrame Snapshot) → Bool
  | .ok frame => frame.isDocument
  | .error _ => false

/-- What is read before the daemon answers. -/
def beforeAnswer (replies : List (Except FrontError (FrontendFrame Snapshot))) :
    List (Except FrontError (FrontendFrame Snapshot)) :=
  replies.takeWhile fun reply => !isAnswer reply

/-- Only state documents come before the answer, and no more than a stop skips. -/
def Prompt (replies : List (Except FrontError (FrontendFrame Snapshot))) : Prop :=
  (∀ reply ∈ beforeAnswer replies, isDocumentReply reply) ∧
    (beforeAnswer replies).length ≤ MAX_STOP_SKIPPED_DOCUMENTS

/-- An answer that goes along with the stop. -/
inductive Honours : Except FrontError (FrontendFrame Snapshot) → Prop where
  | accepted (generation : ℕ) (detail : Option String) :
      Honours (.ok (.controlAck generation true detail))
  | closed : Honours (.error .disconnected)

section ReadAnswer

variable {debug : FrontendFrame Snapshot → String} {skipped : ℕ}
  {replies : List (Except FrontError (FrontendFrame Snapshot))}
  {reply answer : Except FrontError (FrontendFrame Snapshot)}

theorem beforeAnswer_of_answer (answers : isAnswer reply) :
    beforeAnswer (reply :: replies) = [] := by
  simp [beforeAnswer, answers]

theorem beforeAnswer_of_not (early : isAnswer reply = false) :
    beforeAnswer (reply :: replies) = reply :: beforeAnswer replies := by
  simp [beforeAnswer, early]

theorem readAnswer_of_honours (within : skipped ≤ MAX_STOP_SKIPPED_DOCUMENTS)
    (honours : Honours reply) :
    readAnswer debug skipped (reply :: replies) = .ok () ↔
      (∀ early ∈ beforeAnswer (reply :: replies), isDocumentReply early) ∧
        skipped + (beforeAnswer (reply :: replies)).length ≤ MAX_STOP_SKIPPED_DOCUMENTS := by
  cases honours with
  | accepted generation detail =>
      rw [beforeAnswer_of_answer rfl]
      simp [readAnswer, FrontendFrame.isDocument, within]
  | closed =>
      rw [beforeAnswer_of_answer rfl]
      simp [readAnswer, within]

/-- An answer that goes along is understood when nothing but a few state documents precedes it. -/
theorem readAnswer_eq_ok_iff (within : skipped ≤ MAX_STOP_SKIPPED_DOCUMENTS)
    (answered : replies.find? isAnswer = some answer) (honours : Honours answer) :
    readAnswer debug skipped replies = .ok () ↔
      (∀ early ∈ beforeAnswer replies, isDocumentReply early) ∧
        skipped + (beforeAnswer replies).length ≤ MAX_STOP_SKIPPED_DOCUMENTS := by
  induction replies generalizing skipped with
  | nil => simp at answered
  | cons reply rest ih =>
      rcases eq_or_ne (isAnswer reply) true with answers | early
      · simp only [List.find?_cons_of_pos answers, Option.some.injEq] at answered
        apply readAnswer_of_honours within
        rw [answered]
        exact honours
      · rw [List.find?_cons_of_neg early] at answered
        rw [beforeAnswer_of_not (Bool.eq_false_iff.mpr early)]
        cases reply with
        | error error =>
            have goesOn : error ≠ .disconnected := by
              rintro rfl
              exact early rfl
            simp [readAnswer, goesOn, isDocumentReply]
        | ok frame =>
            cases frame with
            | controlAck generation accepted detail => exact absurd rfl early
            | snapshot document =>
                rcases Nat.lt_or_ge skipped MAX_STOP_SKIPPED_DOCUMENTS with fits | full
                · have next := ih (Nat.succ_le_of_lt fits) answered
                  simp only [readAnswer, FrontendFrame.isDocument, fits, and_self, if_true, next,
                    List.forall_mem_cons, isDocumentReply, true_and, List.length_cons,
                    Nat.add_right_comm _ 1, Nat.add_assoc]
                · have tooMany : ¬(skipped + ((beforeAnswer rest).length + 1) ≤
                      MAX_STOP_SKIPPED_DOCUMENTS) := by omega
                  simp [readAnswer, FrontendFrame.isDocument, Nat.not_lt.mpr full, tooMany]
            | _ => simp [readAnswer, FrontendFrame.isDocument, isDocumentReply]

theorem honours_of_not_refused (answered : replies.find? isAnswer = some answer)
    (notRefused : ∀ generation detail, answer ≠ .ok (.controlAck generation false detail)) :
    Honours answer := by
  have answers := List.find?_some answered
  unfold isAnswer at answers
  split at answers
  · rename_i generation accepted detail
    cases accepted with
    | true => exact .accepted generation detail
    | false => exact absurd rfl (notRefused generation detail)
  · exact .closed
  · cases answers

end ReadAnswer

theorem PathEntry.isLive_eq_false_iff {entry : PathEntry} :
    entry.isLive = false ↔ entry = .absent := by
  cases entry <;> simp [isLive]

namespace StopScene

variable [DecidableEq Path] {scene : StopScene Path Snapshot} {home path : Path} {poll : ℕ}

/-- The daemon has run its own cleanup while the stop still polls. -/
def CleansUp (scene : StopScene Path Snapshot) : Prop :=
  ∃ unlinked, scene.cleanup = some unlinked ∧ unlinked < STOP_POLLS

theorem contentsAt_eq_absent_iff (live : scene.contents home ≠ .absent) :
    scene.contentsAt home poll path = .absent ↔
      if path = home then ∃ unlinked, scene.cleanup = some unlinked ∧ unlinked ≤ poll
      else scene.contents path = .absent := by
  rcases eq_or_ne path home with rfl | differs
  · cases cleaned : scene.cleanup with
    | none => simp [contentsAt, cleaned, live]
    | some unlinked =>
        rcases Nat.lt_or_ge poll unlinked with early | late
        · simp [contentsAt, cleaned, live, Nat.not_le.mpr early]
        · simp [contentsAt, cleaned, late]
  · simp only [contentsAt, differs, if_false]
    split
    · rw [Function.update_of_ne differs]
    · rfl

/-- The wait ends well when the daemon's own file goes away in time and no other is there. -/
theorem waitGone_eq_ok_iff (member : home ∈ scene.candidates)
    (live : scene.contents home ≠ .absent) :
    scene.waitGone home = .ok () ↔
      scene.CleansUp ∧
        ∀ path ∈ scene.candidates, path ≠ home → scene.contents path = .absent := by
  have polls : scene.waitGone home = .ok () ↔ ∃ poll < STOP_POLLS, ∀ path ∈ scene.candidates,
      scene.contentsAt home poll path = .absent := by
    simp [waitGone, PathEntry.isLive_eq_false_iff]
  rw [polls]
  simp only [contentsAt_eq_absent_iff live]
  constructor
  · rintro ⟨poll, inTime, gone⟩
    refine ⟨?_, ?_⟩
    · have own := gone home member
      rw [if_pos rfl] at own
      rcases own with ⟨unlinked, cleaned, before⟩
      exact ⟨unlinked, cleaned, before.trans_lt inTime⟩
    · intro path candidate differs
      have other := gone path candidate
      rwa [if_neg differs] at other
  · rintro ⟨⟨unlinked, cleaned, inTime⟩, others⟩
    refine ⟨unlinked, inTime, ?_⟩
    intro path candidate
    split
    · exact ⟨unlinked, cleaned, le_rfl⟩
    · rename_i differs
      exact others path candidate differs

/-- The candidate that a connect reaches. -/
def reached (scene : StopScene Path Snapshot) : Option Path :=
  scene.candidates.find? fun path => (scene.contents path).listens

/-- Exactly one daemon of this configuration and protocol is serving. -/
structure Serves (scene : StopScene Path Snapshot) (home : Path) : Prop where
  candidate : home ∈ scene.candidates
  serving : ∃ listener hello,
    scene.contents home = .socket (some listener) ∧ scene.handshake listener = .ok hello
  only : ∀ path ∈ scene.candidates, ∀ listener hello,
    scene.contents path = .socket (some listener) → scene.handshake listener = .ok hello →
      path = home

/-- The daemon was asked to stop and gave that answer. -/
def Answered (debug : FrontendFrame Snapshot → String) (scene : StopScene Path Snapshot)
    (home : Path) (answer : Except FrontError (FrontendFrame Snapshot)) : Prop :=
  (scene.stop debug).2 = some home ∧ scene.replies.find? isAnswer = some answer

/-- The stop succeeds when the daemon acknowledges and goes away in time, and it fails only when the
daemon refused, did not answer, or is still serving. -/
structure Reports (debug : FrontendFrame Snapshot → String) (scene : StopScene Path Snapshot)
    (home : Path) : Prop where
  succeeds : ∀ generation detail,
    scene.Answered debug home (.ok (.controlAck generation true detail)) → scene.CleansUp →
      (scene.stop debug).1 = .ok ()
  failsOnlyIf : ∀ error, (scene.stop debug).1 = .error error →
    (∃ generation detail,
        scene.Answered debug home (.ok (.controlAck generation false detail))) ∨
      (∀ answer, ¬scene.Answered debug home answer) ∨ ¬scene.CleansUp

/-- A stop reports what happened to the one daemon that serves, and without anything to connect to
it fails and asks nobody. -/
def ReportsWhatHappened (debug : FrontendFrame Snapshot → String)
    (scene : StopScene Path Snapshot) : Prop :=
  (∀ home, scene.Serves home → scene.Reports debug home) ∧
    ((∀ path ∈ scene.candidates, (scene.contents path).listens = false) →
      ∃ error, scene.stop debug = (.error error, none))

/-- Where the daemon that serves is reached and honours the stop in time, few documents come before
its answer and nothing is left at any other candidate. -/
def Uncluttered (scene : StopScene Path Snapshot) (home : Path) : Prop :=
  scene.reached = some home → scene.CleansUp →
    ∀ answer, scene.replies.find? isAnswer = some answer → Honours answer →
      Prompt scene.replies ∧
        ∀ path ∈ scene.candidates, path ≠ home → scene.contents path = .absent

section Reports

variable {debug : FrontendFrame Snapshot → String}
  {answer : Except FrontError (FrontendFrame Snapshot)}

theorem stop_of_reached (serves : scene.Serves home) (reaches : scene.reached = some home) :
    scene.stop debug =
      ((readAnswer debug 0 scene.replies).bind fun _ => scene.waitGone home, some home) := by
  rcases serves.serving with ⟨listener, hello, stands, greeted⟩
  have connected : connect scene.contents scene.candidates = .ok (home, listener) :=
    connectFrom_eq_ok_iff.mpr ⟨reaches, stands⟩
  simp only [stop, connected, greeted]
  cases readAnswer debug 0 scene.replies <;> rfl

theorem stop_snd_eq_iff (serves : scene.Serves home) :
    (scene.stop debug).2 = some home ↔ scene.reached = some home := by
  constructor
  · intro asked
    unfold stop at asked
    split at asked
    · cases asked
    · rename_i path listener connected
      rcases connectFrom_eq_ok_iff.mp connected with ⟨reaches, stands⟩
      split at asked
      · cases asked
      · split at asked <;> exact reaches.trans asked
  · intro reaches
    rw [stop_of_reached serves reaches]

theorem stop_eq_ok_iff (serves : scene.Serves home) (reaches : scene.reached = some home)
    (answered : scene.replies.find? isAnswer = some answer) (honours : Honours answer) :
    (scene.stop debug).1 = .ok () ↔
      Prompt scene.replies ∧ scene.CleansUp ∧
        ∀ path ∈ scene.candidates, path ≠ home → scene.contents path = .absent := by
  have live : scene.contents home ≠ .absent := by
    rcases serves.serving with ⟨listener, hello, stands, -⟩
    simp [stands]
  have understood : readAnswer debug 0 scene.replies = .ok () ↔ _ :=
    readAnswer_eq_ok_iff (Nat.zero_le _) answered honours
  rw [Nat.zero_add] at understood
  rw [← waitGone_eq_ok_iff serves.candidate live, stop_of_reached serves reaches]
  unfold Prompt
  rw [← understood]
  cases readAnswer debug 0 scene.replies with
  | error error => simp [Except.bind]
  | ok _ => simp [Except.bind]

theorem reports_iff (serves : scene.Serves home) :
    scene.Reports debug home ↔ scene.Uncluttered home := by
  constructor
  · intro reports reaches cleans answer answered honours
    have asked : (scene.stop debug).2 = some home := (stop_snd_eq_iff serves).mpr reaches
    suffices succeeded : (scene.stop debug).1 = .ok () by
      rcases (stop_eq_ok_iff serves reaches answered honours).mp succeeded with ⟨prompt, -, others⟩
      exact ⟨prompt, others⟩
    cases told : (scene.stop debug).1 with
    | ok _ => rfl
    | error error =>
        rcases reports.failsOnlyIf error told with ⟨generation, detail, -, refused⟩ | silent | stays
        · rw [answered] at refused
          cases refused
          cases honours
        · exact absurd ⟨asked, answered⟩ (silent answer)
        · exact absurd cleans stays
  · intro uncluttered
    have honoured : ∀ answer, scene.Answered debug home answer → Honours answer →
        scene.CleansUp → (scene.stop debug).1 = .ok () := by
      rintro answer ⟨asked, answered⟩ honours cleans
      have reaches := (stop_snd_eq_iff serves).mp asked
      rcases uncluttered reaches cleans answer answered honours with ⟨prompt, others⟩
      exact (stop_eq_ok_iff serves reaches answered honours).mpr ⟨prompt, cleans, others⟩
    refine ⟨?_, ?_⟩
    · intro generation detail answered cleans
      exact honoured _ answered (.accepted generation detail) cleans
    · intro error failed
      by_contra unexplained
      simp only [not_or, not_exists, not_forall, not_not] at unexplained
      rcases unexplained with ⟨notRefused, ⟨answer, answered⟩, cleans⟩
      have honours : Honours answer := by
        apply honours_of_not_refused answered.2
        rintro generation detail rfl
        exact notRefused generation detail answered
      rw [honoured answer answered honours cleans] at failed
      cases failed

theorem stop_of_silent
    (silent : ∀ path ∈ scene.candidates, (scene.contents path).listens = false) :
    ∃ error, scene.stop debug = (.error error, none) := by
  rcases connectFrom_eq_error silent with ⟨error, refused⟩
  refine ⟨error, ?_⟩
  have notConnected : connect scene.contents scene.candidates = .error error := refused
  simp only [stop, notConnected]

/-- A stop reports what happened exactly in an uncluttered scene. -/
theorem reportsWhatHappened_iff (debug : FrontendFrame Snapshot → String)
    (scene : StopScene Path Snapshot) :
    scene.ReportsWhatHappened debug ↔ ∀ home, scene.Serves home → scene.Uncluttered home := by
  constructor
  · intro reports home serves
    exact (reports_iff serves).mp (reports.1 home serves)
  · intro uncluttered
    refine ⟨?_, stop_of_silent⟩
    intro home serves
    exact (reports_iff serves).mpr (uncluttered home serves)

end Reports

/-- The daemon serves at its primary location, and another one crashed at the fallback before. -/
def leftoverAtFallback : StopScene String Unit where
  candidates :=
    Clientd.candidates (some "/etc/gregg/gregg-client-7.sock") (some "/tmp/gregg-client-7.sock")
  contents := fun path =>
    if path = "/etc/gregg/gregg-client-7.sock" then .socket (some 7)
    else if path = "/tmp/gregg-client-7.sock" then .socket none
    else .absent
  handshake := fun _ => .ok ⟨PROTOCOL_VERSION, "0.1.0", "7", 1⟩
  replies := [.ok (.snapshot ()), .ok (.controlAck 1 true none)]
  cleanup := some 3

theorem serves_leftoverAtFallback :
    leftoverAtFallback.Serves "/etc/gregg/gregg-client-7.sock" where
  candidate := by decide
  serving := ⟨7, _, by decide, rfl⟩
  only := by
    intro path _ listener _ stands _
    by_contra differs
    simp only [leftoverAtFallback, if_neg differs] at stands
    split at stands <;> cases stands

theorem stop_leftoverAtFallback (debug : FrontendFrame Unit → String) :
    leftoverAtFallback.stop debug =
      (.error (.refused "the client daemon accepted the stop but is still listening"),
        some "/etc/gregg/gregg-client-7.sock") := by
  have gone : leftoverAtFallback.waitGone "/etc/gregg/gregg-client-7.sock" =
      .error (.refused "the client daemon accepted the stop but is still listening") := by
    decide +kernel
  have reaches : leftoverAtFallback.reached = some "/etc/gregg/gregg-client-7.sock" := by
    decide +kernel
  rw [stop_of_reached serves_leftoverAtFallback reaches, gone]
  rfl

theorem not_reportsWhatHappened_leftover :
    ¬leftoverAtFallback.ReportsWhatHappened fun _ => "Snapshot" := by
  intro reports
  have succeeded := (reports.1 _ serves_leftoverAtFallback).succeeds 1 none
    ⟨by rw [stop_leftoverAtFallback], rfl⟩ ⟨3, rfl, by decide⟩
  rw [stop_leftoverAtFallback] at succeeded
  cases succeeded

end StopScene

end Gregg.Clientd
