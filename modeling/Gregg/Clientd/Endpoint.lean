import Gregg.Clientd.Attach

/-!
# The candidate paths of an endpoint

A socket file outlives the process that listened on it, so what stands at a path says less than what
answers there.
-/

namespace Gregg.Clientd

/-- What stands at a path; a socket has the process that listens on it, while there is one. -/
inductive PathEntry where
  | absent
  | file
  | socket (listener : Option ℕ)
  deriving DecidableEq

/-- `endpoint_is_live`, which is `path.exists()`. -/
def PathEntry.isLive : PathEntry → Bool
  | absent => false
  | _ => true

def PathEntry.listens : PathEntry → Bool
  | socket listener => listener.isSome
  | _ => false

/-- `UnixStream::connect`. -/
def PathEntry.connect : PathEntry → Except AttachError ℕ
  | absent => .error (.io .notFound "No such file or directory (os error 2)")
  | file | socket none => .error (.io .connectionRefused "Connection refused (os error 111)")
  | socket (some listener) => .ok listener

variable {Path : Type}

/-- Every location the daemon may have bound, primary first. -/
def candidates [DecidableEq Path] (primary fallback : Option Path) : List Path :=
  match fallback with
  | none => primary.toList
  | some fallback =>
      if fallback ∈ primary.toList then primary.toList else primary.toList ++ [fallback]

theorem length_candidates_le [DecidableEq Path] (primary fallback : Option Path) :
    (candidates primary fallback).length ≤ 2 := by
  cases primary with
  | none => cases fallback <;> simp [candidates]
  | some primary =>
      cases fallback with
      | none => simp [candidates]
      | some fallback =>
          simp only [candidates]
          split <;> simp

/-- The loop of `connect`, with the last failure. -/
def connectFrom (contents : Path → PathEntry) (last : Option AttachError) :
    List Path → Except AttachError (Path × ℕ)
  | [] =>
      .error (last.getD
        (.io .notFound "no client-daemon socket location exists for this config"))
  | path :: rest =>
      match (contents path).connect with
      | .ok listener => .ok (path, listener)
      | .error error => connectFrom contents (some error) rest

/-- Connect to the first candidate that answers. -/
def connect (contents : Path → PathEntry) (candidates : List Path) :
    Except AttachError (Path × ℕ) :=
  connectFrom contents none candidates

variable {contents : Path → PathEntry} {candidates : List Path} {path : Path} {listener : ℕ}
  {last : Option AttachError}

/-- Only what listens is connected to, and the first of them. -/
theorem connectFrom_eq_ok_iff :
    connectFrom contents last candidates = .ok (path, listener) ↔
      candidates.find? (fun path => (contents path).listens) = some path ∧
        contents path = .socket (some listener) := by
  induction candidates generalizing last with
  | nil => simp [connectFrom]
  | cons first rest ih =>
      cases stands : contents first with
      | absent => simp [connectFrom, stands, PathEntry.connect, PathEntry.listens, ih]
      | file => simp [connectFrom, stands, PathEntry.connect, PathEntry.listens, ih]
      | socket owner =>
          cases owner with
          | none => simp [connectFrom, stands, PathEntry.connect, PathEntry.listens, ih]
          | some owner =>
              simp only [connectFrom, stands, PathEntry.connect, PathEntry.listens,
                Option.isSome_some, List.find?_cons_of_pos, Except.ok.injEq, Prod.mk.injEq,
                Option.some.injEq]
              constructor
              · rintro ⟨rfl, rfl⟩
                exact ⟨rfl, stands⟩
              · rintro ⟨rfl, found⟩
                rw [stands] at found
                cases found
                exact ⟨rfl, rfl⟩

theorem connectFrom_eq_error (silent : ∀ path ∈ candidates, (contents path).listens = false) :
    ∃ error, connectFrom contents last candidates = .error error := by
  cases connected : connectFrom contents last candidates with
  | error error => exact ⟨error, rfl⟩
  | ok found =>
      rcases connectFrom_eq_ok_iff.mp connected with ⟨reached, -⟩
      have listens := List.find?_some reached
      rw [silent _ (List.mem_of_find?_eq_some reached)] at listens
      cases listens

end Gregg.Clientd
