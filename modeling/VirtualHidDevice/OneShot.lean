import Mathlib.Data.List.Basic

/-!
# The one-shot promise of the manager application

`OneShot` bridges the delegate callbacks of a system extension request to `async`
code: `wait()` suspends until `resume(_:)` provides a result. Calls of an actor are
serialized, so a run is a list of calls.

* `OneShot.wait`, `OneShot.resume` — the two methods, with the deliveries they make.
* `OneShot.run_delivered` — what a single `wait()` among any number of `resume(_:)`
  calls is resumed with: the last result provided before it, or else the first one
  provided after it.
* `ExtensionManager` — which result each delegate callback provides.
-/

namespace VirtualHidDevice

variable {ε α : Type*}

/-- The actor, with the deliveries it has made. -/
structure OneShot (ε α : Type*) where
  /-- `continuation`: the call of `wait()` that is suspended -/
  continuation : Option ℕ := none
  /-- `pending` -/
  pending : Option (Except ε α) := none
  /-- how often `wait()` was called -/
  waits : ℕ := 0
  /-- the calls of `wait()` that were resumed, and what with -/
  delivered : List (ℕ × Except ε α) := []

/-- A call of the actor. -/
inductive OneShotCall (ε α : Type*) where
  /-- `wait()` -/
  | wait
  /-- `resume(result)` -/
  | resume (result : Except ε α)

namespace OneShot

/-- `wait()`. -/
def wait (s : OneShot ε α) : OneShot ε α :=
  match s.pending with
  | some p => { s with
      pending := none
      waits := s.waits + 1
      delivered := s.delivered ++ [(s.waits, p)] }
  | none => { s with continuation := some s.waits, waits := s.waits + 1 }

/-- `resume(_:)`. -/
def resume (s : OneShot ε α) (result : Except ε α) : OneShot ε α :=
  match s.continuation with
  | some c => { s with continuation := none, delivered := s.delivered ++ [(c, result)] }
  | none => { s with pending := some result }

/-- One call. -/
def call (s : OneShot ε α) : OneShotCall ε α → OneShot ε α
  | .wait => s.wait
  | .resume result => s.resume result

/-- All calls, in order. -/
def run (calls : List (OneShotCall ε α)) : OneShot ε α := calls.foldl call {}

/-- `resume(_:)` for each result, with `wait()` in one place among them. -/
def callsWithWait (results : List (Except ε α)) (position : ℕ) : List (OneShotCall ε α) :=
  (results.take position).map .resume ++ .wait :: (results.drop position).map .resume

/-- While nobody waits, a result replaces the one before. -/
theorem foldl_resume (s : OneShot ε α) (results : List (Except ε α))
    (h : s.continuation = none) :
    (results.map OneShotCall.resume).foldl call s =
      { s with pending := results.getLast?.or s.pending } := by
  induction results generalizing s with
  | nil => rfl
  | cons r results ih =>
    have hcall : s.call (.resume r) = { s with pending := some r } := by
      rw [call, resume, h]
    rw [List.map_cons, List.foldl_cons, hcall, ih { s with pending := some r } h]
    rcases hlast : results.getLast? with _ | last
    · rw [List.getLast?_eq_none_iff.mp hlast]
      rfl
    · simp [List.getLast?_cons, hlast]

/-- What `wait()` is resumed with, if it is resumed at all. -/
theorem run_delivered (results : List (Except ε α)) (position : ℕ) :
    (run (callsWithWait results position)).delivered =
      ((((results.take position).getLast?.or (results.drop position).head?).map
        ((0, ·))).toList) := by
  rw [run, callsWithWait, List.foldl_append, foldl_resume {} _ rfl, List.foldl_cons]
  rcases hlast : (results.take position).getLast? with _ | last
  · -- the continuation is stored, and the next result is for it
    rcases results.drop position with _ | ⟨r, rest⟩
    · rfl
    · rw [List.map_cons, List.foldl_cons]
      simp only [call, wait, resume, Option.or_none, Option.none_or, List.head?_cons]
      rw [foldl_resume _ _ rfl]
      rfl
  · -- the pending result is consumed, and all later ones become pending
    simp only [call, wait, Option.or_none, Option.some_or]
    rw [foldl_resume _ _ rfl]
    rfl

/-- Wherever it stands, `wait()` is resumed exactly once. -/
theorem run_delivered_once (first : Except ε α) (rest : List (Except ε α)) (position : ℕ) :
    ∃ result, (run (callsWithWait (first :: rest) position)).delivered = [(0, result)] := by
  rw [run_delivered]
  cases position with
  | zero => exact ⟨first, rfl⟩
  | succ n =>
    rw [List.take_succ_cons, List.getLast?_cons]
    exact ⟨_, rfl⟩

end OneShot

/-- `wait()` is resumed once and with the first result exactly if no more than one result is
provided before it, or the last of those before it is the same as the first. -/
theorem one_shot_delivers_first (first : Except ε α) (rest : List (Except ε α)) (position : ℕ) :
    (OneShot.run (OneShot.callsWithWait (first :: rest) position)).delivered = [(0, first)] ↔
      position ≤ 1 ∨ ((first :: rest).take position).getLast? = some first := by
  rw [OneShot.run_delivered]
  match position with
  | 0 => simp
  | 1 => simp
  | n + 2 =>
    rw [List.take_succ_cons, List.getLast?_cons]
    simp

/-- A second result before `wait()` replaces the first one. -/
theorem second_result_replaces_first :
    let results : List (Except ℕ ℕ) := [.ok 1, .error 2]
    (OneShot.run (OneShot.callsWithWait results 2)).delivered = [(0, .error 2)] ∧
      (OneShot.run (OneShot.callsWithWait results 2)).delivered ≠ [(0, .ok 1)] :=
  ⟨rfl, fun h => by cases h⟩

/-! ## The delegate of a system extension request -/

namespace ExtensionManager

/-- `Operation`. -/
inductive Operation where
  | activate
  | forceActivate
  | deactivate
deriving DecidableEq, Repr

/-- `OSSystemExtensionRequest.Result`. -/
inductive RequestResult where
  | completed
  | willCompleteAfterReboot
  /-- a case of a later version of the system -/
  | unknown (rawValue : Int)
deriving DecidableEq, Repr

/-- A callback of the system that ends the request. -/
inductive Callback (ε : Type*) where
  /-- `request(_:didFinishWithResult:)` -/
  | didFinishWithResult (result : RequestResult)
  /-- `request(_:didFailWithError:)` -/
  | didFailWithError (error : ε)

/-- The result that a callback provides; `extensionNotFound` tells the errors with that code. -/
def Callback.result (operation : Operation) (extensionNotFound : ε → Bool) :
    Callback ε → Except ε RequestResult
  | didFinishWithResult result => .ok result
  | didFailWithError error =>
    if operation = .deactivate ∧ extensionNotFound error then .ok .completed else .error error

/-- The system ends a request once, so `perform` returns what that callback provides, whether
it is called before `wait()` or after it. -/
theorem perform_returns (operation : Operation) (extensionNotFound : ε → Bool)
    (callback : Callback ε) (position : ℕ) :
    (OneShot.run (OneShot.callsWithWait [callback.result operation extensionNotFound]
      position)).delivered = [(0, callback.result operation extensionNotFound)] := by
  rw [OneShot.run_delivered]
  cases position with
  | zero => rfl
  | succ n => rw [List.take_succ_cons, List.take_nil]; rfl

end ExtensionManager

end VirtualHidDevice
