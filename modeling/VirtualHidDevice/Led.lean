import VirtualHidDevice.Driver

/-!
# The LED state of the keyboard

`VirtualHIDKeyboard::setReport`: the host sets the LEDs with an output report, and the
keyboard tells it the new state with an input report of its own.

* `VirtualHidKeyboard.setReport` — the call, with the results of the steps that can fail.
* `VirtualHidKeyboard.told` — the LED state that the host was told.
* `VirtualHidKeyboard.Posts` — if there is a new state to tell, telling it succeeds. This is
  exactly when the remembered state is the one the host was told.
-/

namespace VirtualHidDevice

/-- The instance variables of `VirtualHIDKeyboard` that `setReport` uses, zeroed by
`IONewZero`. -/
structure VirtualHidKeyboard extends HidDevice where
  /-- `lastLedState` -/
  lastLedState : UInt8 := 0
deriving DecidableEq, Repr

/-- A call of `setReport` with the results of the steps that can fail. -/
structure SetReportCall where
  /-- the bytes of `report`, none for a null pointer -/
  report : Option Bytes
  /-- `Map` -/
  map : IOReturn := .success
  /-- the answers to `createWithBytes` -/
  create : CreateAnswers := {}
  /-- the answers to `postReport` -/
  post : PostAnswers := {}

namespace VirtualHidKeyboard

/-- `setReport`. -/
def setReport (call : SetReportCall) (k : VirtualHidKeyboard) : IOReturn × VirtualHidKeyboard :=
  match call.report with
  | none => (.badArgument, k)
  | some bytes =>
    if call.map ≠ .success then (call.map, k)
    else match bytes with
    | reportId :: state :: _ =>
      if reportId ≠ 5 then (.unsupported, k)
      else if k.lastLedState = state then (.success, k)
      else
        let k := { k with lastLedState := state }
        match createWithBytes call.create [6, state] with
        | .error kr => (kr, k)
        | .ok memory =>
          (.success, { k with toHidDevice := (k.postReport call.post (some memory)).2 })
    -- `len < 2`
    | _ => (.badArgument, k)

/-- One call. -/
def step (k : VirtualHidKeyboard) (call : SetReportCall) : Option VirtualHidKeyboard :=
  some (k.setReport call).2

/-- The LED state that the host was told: the state byte of the last accepted LED report. -/
def told (k : VirtualHidKeyboard) : UInt8 :=
  ((k.view keyboardReportId (some 6)).bind fun report => report[1]?).getD 0

/-- The state that a call sets, if it passes all checks and is not the last one. -/
def newState (k : VirtualHidKeyboard) (call : SetReportCall) : Option UInt8 :=
  match call.report, call.map with
  | some (5 :: state :: _), .success => if k.lastLedState = state then none else some state
  | _, _ => none

/-- Telling the host a new state succeeds. -/
def Posts (k : VirtualHidKeyboard) (call : SetReportCall) : Prop :=
  ∀ state ∈ k.newState call,
    (createWithBytes call.create [6, state]).isOk = true ∧ call.post.accepts = true

instance (k : VirtualHidKeyboard) (call : SetReportCall) : Decidable (k.Posts call) :=
  inferInstanceAs (Decidable (∀ state ∈ k.newState call, _))

/-- A call that sets no new state changes nothing. -/
theorem setReport_of_none {k : VirtualHidKeyboard} {call : SetReportCall}
    (h : k.newState call = none) : (k.setReport call).2 = k := by
  rw [setReport]
  split
  · rfl
  next bytes hreport =>
    split
    · rfl
    next hmap =>
      split
      next reportId state rest =>
        split
        · rfl
        next hid =>
          split
          · rfl
          next hne =>
            rw [not_not] at hmap hid
            rw [newState, hreport, hmap, hid] at h
            simp only [if_neg hne] at h
            cases h
      · rfl

/-- A call that sets a new state remembers it before the steps that can fail. -/
theorem setReport_of_some {k : VirtualHidKeyboard} {call : SetReportCall} {state : UInt8}
    (h : k.newState call = some state) : k.lastLedState ≠ state ∧
      k.setReport call = match createWithBytes call.create [6, state] with
        | .error kr => (kr, { k with lastLedState := state })
        | .ok memory => (.success, { k with
            toHidDevice := (k.postReport call.post (some memory)).2
            lastLedState := state }) := by
  rw [newState] at h
  split at h
  next state' rest hreport hmap =>
    split at h
    · cases h
    next hne =>
      obtain rfl := Option.some.inj h
      refine ⟨hne, ?_⟩
      simp only [setReport, hreport, hmap, ne_eq, not_true_eq_false, if_false, if_neg hne]
  · cases h

/-- What the host was told after an LED report was posted. -/
theorem told_postReport (k : VirtualHidKeyboard) (answers : PostAnswers) (state last : UInt8) :
    told { k with toHidDevice := (k.postReport answers (some [6, state])).2, lastLedState := last } =
      if answers.accepts then state else k.told := by
  have haccepted := HidDevice.postReport_accepted answers [6, state] k.toHidDevice
  rw [told, HidDevice.view, haccepted, List.filter_append]
  by_cases hposts : answers.accepts = true
  · simp [hposts, keyboardReportId]
  · rw [if_neg hposts, if_neg hposts, List.filter_nil, List.append_nil]
    rfl

/-- If the host was told the remembered state, then after a call it was again, and an error
leaves the state alone, exactly if telling a new state succeeds. -/
theorem setReport_told {k : VirtualHidKeyboard} (h : k.lastLedState = k.told)
    (call : SetReportCall) :
    ((k.setReport call).2.lastLedState = (k.setReport call).2.told ∧
        ((k.setReport call).1 ≠ .success → (k.setReport call).2.lastLedState = k.lastLedState)) ↔
      k.Posts call := by
  rcases hnew : k.newState call with _ | state
  · rw [setReport_of_none hnew]
    refine iff_of_true ⟨h, fun _ => rfl⟩ fun state hstate => ?_
    cases hnew.symm.trans hstate
  · obtain ⟨hne, heq⟩ := setReport_of_some hnew
    have hposts : k.Posts call ↔ (createWithBytes call.create [6, state]).isOk = true ∧
        call.post.accepts = true := by
      rw [Posts, hnew]
      simp
    rw [heq, hposts]
    rcases hc : createWithBytes call.create [6, state] with kr | memory
    · -- the state is remembered, and the host was not told
      refine iff_of_false (fun hsame => hne ?_) (fun hok => by cases hok.1)
      exact (hsame.2 (createWithBytes_error hc)).symm
    · obtain rfl := createWithBytes_ok hc
      simp only [told_postReport]
      by_cases haccepts : call.post.accepts = true
      · rw [if_pos haccepts]
        exact iff_of_true ⟨rfl, fun hfails => absurd rfl hfails⟩ ⟨rfl, haccepts⟩
      · rw [if_neg haccepts]
        refine iff_of_false (fun hsame => hne ?_) (fun hok => haccepts hok.2)
        exact h.trans hsame.1.symm

end VirtualHidKeyboard

/-- In every run in which telling the host a new state succeeds each time, the remembered LED
state is the one the host was told; and for any further call, it stays so, and is left alone by
an error, exactly if that holds for this call too. -/
theorem led_state_told (calls : List SetReportCall) (k : VirtualHidKeyboard)
    (hposts : Transition.Meets VirtualHidKeyboard.step VirtualHidKeyboard.Posts {} calls)
    (h : Transition.run VirtualHidKeyboard.step {} calls = some k) :
    k.lastLedState = k.told ∧ ∀ call,
      ((k.setReport call).2.lastLedState = (k.setReport call).2.told ∧
        ((k.setReport call).1 ≠ .success → (k.setReport call).2.lastLedState = k.lastLedState)) ↔
      k.Posts call := by
  have htold : k.lastLedState = k.told := by
    refine Transition.run_invariant_of_meets
      (I := fun k : VirtualHidKeyboard => k.lastLedState = k.told) rfl ?_ hposts h
    intro k call t htold hcond hstep
    obtain rfl := Option.some.inj hstep
    exact ((VirtualHidKeyboard.setReport_told htold call).mpr hcond).1
  exact ⟨htold, VirtualHidKeyboard.setReport_told htold⟩

/-- The memory for the LED report cannot be created: the call returns the error, the state is
remembered, and setting it again posts nothing. -/
theorem led_state_not_told :
    let call : SetReportCall := { report := some [5, 2], create := { create := .noMemory } }
    let k := (VirtualHidKeyboard.setReport call {}).2
    (VirtualHidKeyboard.setReport call {}).1 = .noMemory ∧ k.lastLedState = 2 ∧ k.told = 0 ∧
      k.setReport { report := some [5, 2] } = (.success, k) ∧ k.accepted = [] := by
  decide +kernel

/-- A run to which the theorem applies: two states are told, with a rejected report and a
repeated one in between. -/
theorem led_states_told_in_turn : ∃ k,
    Transition.run VirtualHidKeyboard.step {}
      [{ report := some [5, 2] }, { report := some [1, 3] }, { report := some [5, 2] },
       { report := some [5, 0] }] = some k ∧
    k.accepted = [[6, 2], [6, 0]] ∧ k.lastLedState = k.told := by
  have hposts : Transition.Meets VirtualHidKeyboard.step VirtualHidKeyboard.Posts {}
      [{ report := some [5, 2] }, { report := some [1, 3] }, { report := some [5, 2] },
       { report := some [5, 0] }] := by
    decide +kernel
  obtain ⟨k, hk, haccepted⟩ : ∃ k, Transition.run VirtualHidKeyboard.step {}
      [{ report := some [5, 2] }, { report := some [1, 3] }, { report := some [5, 2] },
       { report := some [5, 0] }] = some k ∧ k.accepted = [[6, 2], [6, 0]] := by
    decide +kernel
  exact ⟨k, hk, haccepted, (led_state_told _ k hposts hk).1⟩

end VirtualHidDevice
