import VirtualHidDevice.Transition
import VirtualHidDevice.ReportDescriptor

/-!
# The virtual devices of the driver

`VirtualHIDKeyboard` and `VirtualHIDPointing`: reports are copied into memory
descriptors and handed to `handleReport`, each of which can fail.

* `createWithBytes`, `HidDevice.postReport` — the two fallible steps, with what the
  system answers.
* `HidDevice.view` — what the host knows: the last accepted report of each report id.
* `HidDevice.postAll` — the loop of `reset`. `HidDevice.postAll_releases` says exactly
  when a reset that returns success leaves nothing held.
-/

namespace VirtualHidDevice

open HidDescriptor LittleEndian

/-! ## Fallible calls of the system -/

/-- `kern_return_t`, as far as the driver tells its values apart. -/
inductive IOReturn where
  /-- `kIOReturnSuccess` -/
  | success
  /-- `kIOReturnBadArgument` -/
  | badArgument
  /-- `kIOReturnUnsupported` -/
  | unsupported
  /-- `kIOReturnNoMemory` -/
  | noMemory
  /-- any other error of the system -/
  | other (code : ℕ)
deriving DecidableEq, Repr

/-- What the system answers to `createWithBytes`. -/
structure CreateAnswers where
  /-- `IOBufferMemoryDescriptor::Create` -/
  create : IOReturn := .success
  /-- `Map` -/
  map : IOReturn := .success
  /-- the length that `Map` reports for a buffer -/
  len : ℕ → ℕ := id

/-- What the system answers to `postReport`. -/
structure PostAnswers where
  /-- `GetLength` -/
  getLength : IOReturn := .success
  /-- `handleReport` -/
  handleReport : IOReturn := .success

/-- `IOBufferMemoryDescriptorUtility::createWithBytes`, for an object and a place to store the
descriptor that are not null. -/
def createWithBytes (answers : CreateAnswers) (bytes : Bytes) : Except IOReturn Bytes :=
  if answers.create ≠ .success then .error answers.create
  else if answers.map ≠ .success then .error answers.map
  else if bytes.length ≠ answers.len bytes.length then .error .noMemory
  else .ok bytes

/-- Both steps of `postReport` succeed. -/
def PostAnswers.accepts (answers : PostAnswers) : Bool :=
  answers.getLength = .success ∧ answers.handleReport = .success

/-- An error is never reported as success. -/
theorem createWithBytes_error {answers : CreateAnswers} {bytes : Bytes} {kr : IOReturn}
    (h : createWithBytes answers bytes = .error kr) : kr ≠ .success := by
  rw [createWithBytes] at h
  split at h
  next hcreate =>
    obtain rfl := Except.error.inj h
    exact hcreate
  next =>
    split at h
    next hmap =>
      obtain rfl := Except.error.inj h
      exact hmap
    next =>
      split at h
      · obtain rfl := Except.error.inj h
        intro h
        cases h
      · cases h

/-- The memory descriptor holds the bytes. -/
theorem createWithBytes_ok {answers : CreateAnswers} {bytes memory : Bytes}
    (h : createWithBytes answers bytes = .ok memory) : memory = bytes := by
  rw [createWithBytes] at h
  split at h
  · cases h
  · split at h
    · cases h
    · split at h
      · cases h
      · exact (Except.ok.inj h).symm

/-! ## Posting reports -/

/-- A device, as far as the host knows it. -/
structure HidDevice where
  /-- the reports that `handleReport` has accepted -/
  accepted : List Bytes := []
deriving DecidableEq, Repr

/-- The answers to one round of the loop of `reset`. -/
structure ResetAnswers where
  /-- the answers to `createWithBytes` -/
  create : CreateAnswers := {}
  /-- the answers to `postReport` -/
  post : PostAnswers := {}

namespace HidDevice

/-- `postReport`, which both devices implement alike. -/
def postReport (answers : PostAnswers) (report : Option Bytes) (d : HidDevice) :
    IOReturn × HidDevice :=
  match report with
  | none => (.badArgument, d)
  | some bytes =>
    if answers.getLength ≠ .success then (answers.getLength, d)
    else if answers.handleReport = .success then
      (.success, { d with accepted := d.accepted ++ [bytes] })
    else (answers.handleReport, d)

/-- The loop of `reset` over its reports. The result of `postReport` is not looked at. -/
def postAll : List (Bytes × ResetAnswers) → HidDevice → IOReturn × HidDevice
  | [], d => (.success, d)
  | (bytes, answers) :: rest, d => match createWithBytes answers.create bytes with
    | .error kr => (kr, d)
    | .ok memory => postAll rest (d.postReport answers.post (some memory)).2

/-- The host's view: the last accepted report of a report id. -/
def view (reportId : Bytes → Option UInt8) (d : HidDevice) (id : Option UInt8) : Option Bytes :=
  (d.accepted.filter fun report => reportId report = id).getLast?

/-- In the host's view, the last report of a report id holds something. -/
def Holding (reportId : Bytes → Option UInt8) (Held : Bytes → Prop) (d : HidDevice)
    (id : Option UInt8) : Prop :=
  ∃ report, d.view reportId id = some report ∧ Held report

/-- A history of posted reports. -/
def posted (history : List (Bytes × PostAnswers)) : HidDevice :=
  history.foldl (fun d p => (d.postReport p.2 (some p.1)).2) {}

theorem postReport_accepted (answers : PostAnswers) (bytes : Bytes) (d : HidDevice) :
    (d.postReport answers (some bytes)).2.accepted =
      d.accepted ++ if answers.accepts then [bytes] else [] := by
  by_cases hlength : answers.getLength = .success
  · by_cases hhandle : answers.handleReport = .success
    · simp [postReport, PostAnswers.accepts, hlength, hhandle]
    · simp [postReport, PostAnswers.accepts, hlength, hhandle]
  · simp [postReport, PostAnswers.accepts, hlength]

/-! ## The loop of `reset` -/

/-- If no descriptor can be created for one of the reports, an error is returned. -/
theorem postAll_error {steps : List (Bytes × ResetAnswers)}
    (h : ∃ p ∈ steps, (createWithBytes p.2.create p.1).isOk = false) (d : HidDevice) :
    (postAll steps d).1 ≠ .success := by
  induction steps generalizing d with
  | nil =>
    obtain ⟨p, hp, -⟩ := h
    cases hp
  | cons step rest ih =>
    rcases hc : createWithBytes step.2.create step.1 with kr | memory
    · rw [postAll, hc]
      exact createWithBytes_error hc
    · rw [postAll, hc]
      refine ih ?_ _
      obtain ⟨p, hp, hfails⟩ := h
      rcases List.mem_cons.mp hp with rfl | hp
      · rw [hc] at hfails
        cases hfails
      · exact ⟨p, hp, hfails⟩

/-- Otherwise all of them are posted, and those that are accepted reach the host. -/
theorem postAll_ok {steps : List (Bytes × ResetAnswers)}
    (h : ∀ p ∈ steps, (createWithBytes p.2.create p.1).isOk = true) (d : HidDevice) :
    (postAll steps d).1 = .success ∧ (postAll steps d).2.accepted =
      d.accepted ++ (steps.filter fun p => p.2.post.accepts).map Prod.fst := by
  induction steps generalizing d with
  | nil => exact ⟨rfl, (List.append_nil _).symm⟩
  | cons step rest ih =>
    rcases hc : createWithBytes step.2.create step.1 with kr | memory
    · have hok := h step List.mem_cons_self
      rw [hc] at hok
      cases hok
    · obtain rfl := createWithBytes_ok hc
      rw [postAll, hc]
      obtain ⟨hsuccess, haccepted⟩ := ih (fun p hp => h p (List.mem_cons_of_mem _ hp))
        (d.postReport step.2.post (some step.1)).2
      refine ⟨hsuccess, haccepted.trans ?_⟩
      rw [postReport_accepted, List.append_assoc]
      by_cases hposts : step.2.post.accepts = true
      · simp [hposts]
      · simp [hposts]

/-- With a report id of its own, a report of the loop is the only one the loop posts under it. -/
theorem filter_accepted {reportId : Bytes → Option UInt8} {steps : List (Bytes × ResetAnswers)}
    (hdistinct : (steps.map fun p => reportId p.1).Nodup) {p : Bytes × ResetAnswers}
    (hp : p ∈ steps) :
    ((steps.filter fun q => q.2.post.accepts).map Prod.fst).filter
        (fun report => reportId report = reportId p.1) =
      if p.2.post.accepts then [p.1] else [] := by
  induction steps with
  | nil => cases hp
  | cons step rest ih =>
    rw [List.map_cons, List.nodup_cons] at hdistinct
    rcases List.mem_cons.mp hp with rfl | hrest
    · have hnone : ((rest.filter fun q => q.2.post.accepts).map Prod.fst).filter
          (fun report => reportId report = reportId p.1) = [] := by
        refine List.filter_eq_nil_iff.mpr fun report hreport heq => hdistinct.1 ?_
        obtain ⟨q, hq, rfl⟩ := List.mem_map.mp hreport
        exact List.mem_map.mpr ⟨q, (List.mem_filter.mp hq).1, of_decide_eq_true heq⟩
      by_cases hposts : p.2.post.accepts = true
      · simp [hposts, hnone]
      · simp [hposts, hnone]
    · have hne : reportId step.1 ≠ reportId p.1 := by
        intro heq
        exact hdistinct.1 (heq ▸ List.mem_map.mpr ⟨p, hrest, rfl⟩)
      rw [← ih hdistinct.2 hrest]
      by_cases hposts : step.2.post.accepts = true
      · simp [hposts, hne]
      · simp [hposts]

/-- The host's view after the loop, under the report id of one of its reports. -/
theorem postAll_view {reportId : Bytes → Option UInt8} {steps : List (Bytes × ResetAnswers)}
    (hdistinct : (steps.map fun p => reportId p.1).Nodup)
    (hcreate : ∀ p ∈ steps, (createWithBytes p.2.create p.1).isOk = true) (d : HidDevice)
    {p : Bytes × ResetAnswers} (hp : p ∈ steps) :
    (postAll steps d).2.view reportId (reportId p.1) =
      if p.2.post.accepts then some p.1 else d.view reportId (reportId p.1) := by
  rw [view, (postAll_ok hcreate d).2, List.filter_append, filter_accepted hdistinct hp]
  split
  · exact List.getLast?_concat
  · rw [List.append_nil, view]

/-- A reset with reports that hold nothing, each with a report id of its own: if it returns
success then nothing is held under these report ids, exactly if a descriptor cannot be created,
or each report is accepted or there was nothing to release. -/
theorem postAll_releases {reportId : Bytes → Option UInt8} {Held : Bytes → Prop}
    {steps : List (Bytes × ResetAnswers)} (hdistinct : (steps.map fun p => reportId p.1).Nodup)
    (hempty : ∀ p ∈ steps, ¬ Held p.1) (d : HidDevice) :
    ((postAll steps d).1 = .success →
        ∀ p ∈ steps, ¬ (postAll steps d).2.Holding reportId Held (reportId p.1)) ↔
      (∃ p ∈ steps, (createWithBytes p.2.create p.1).isOk = false) ∨
        ∀ p ∈ steps, p.2.post.accepts = true ∨ ¬ d.Holding reportId Held (reportId p.1) := by
  by_cases hcreate : ∃ p ∈ steps, (createWithBytes p.2.create p.1).isOk = false
  · exact iff_of_true (fun hsuccess => absurd hsuccess (postAll_error hcreate d)) (Or.inl hcreate)
  · have hok : ∀ p ∈ steps, (createWithBytes p.2.create p.1).isOk = true := by
      intro p hp
      by_contra hfails
      exact hcreate ⟨p, hp, Bool.eq_false_iff.mpr hfails⟩
    rw [or_iff_right hcreate, forall_prop_of_true (postAll_ok hok d).1]
    refine forall₂_congr fun p hp => ?_
    rw [Holding, postAll_view hdistinct hok d hp]
    by_cases hposts : p.2.post.accepts = true
    · rw [if_pos hposts]
      refine iff_of_true ?_ (Or.inl hposts)
      rintro ⟨report, hreport, hheld⟩
      obtain rfl := Option.some.inj hreport
      exact hempty p hp hheld
    · rw [if_neg hposts, or_iff_right hposts]
      rfl

end HidDevice

/-! ## The reset of the two devices -/

/-- A report of the keyboard starts with its report id. -/
def keyboardReportId : Bytes → Option UInt8 := List.head?

/-- A report of the pointing device has no report id. -/
def pointingReportId : Bytes → Option UInt8 := fun _ => none

/-- A modifier or a key usage is held in a report of the keyboard. -/
def KeyHeld (report : Bytes) : Prop :=
  ∃ cs u, hostDecode keyboardReportDescriptor report = some cs ∧ Asserts cs u

/-- A button is held in a report of the pointing device. -/
def ButtonHeld (report : Bytes) : Prop :=
  ∃ cs u, hostDecode pointingReportDescriptor report = some cs ∧ u.page = 0x09 ∧ Asserts cs u

/-- The empty reports that `VirtualHIDKeyboard::reset` posts. -/
def keyboardResetInputs : List Bytes :=
  [KeyboardInput.init.bytes, KeysInput.consumer.bytes, KeysInput.appleVendorKeyboard.bytes,
   KeysInput.appleVendorTopCase.bytes, KeysInput.genericDesktop.bytes]

/-- The empty reports that `VirtualHIDPointing::reset` posts. -/
def pointingResetInputs : List Bytes := [PointingInput.init.bytes]

/-- The reports of a reset with the answers to each round of the loop. -/
def resetSteps (inputs : List Bytes) (answers : ℕ → ResetAnswers) : List (Bytes × ResetAnswers) :=
  inputs.zipIdx.map fun p => (p.1, answers p.2)

/-- `VirtualHIDKeyboard::reset`. -/
def keyboardReset (answers : ℕ → ResetAnswers) (d : HidDevice) : IOReturn × HidDevice :=
  d.postAll (resetSteps keyboardResetInputs answers)

/-- `VirtualHIDPointing::reset`. -/
def pointingReset (answers : ℕ → ResetAnswers) (d : HidDevice) : IOReturn × HidDevice :=
  d.postAll (resetSteps pointingResetInputs answers)

theorem Keys.not_holds_init (id : ℕ) : ¬ Keys.init.Holds id := by
  rw [Keys.holds_iff]
  rintro ⟨k, hk, hne, -⟩
  exact hne (List.eq_of_mem_replicate hk)

theorem Keys.init_slots_le {n : ℕ} : ∀ k ∈ Keys.init.slots, k.toNat ≤ n := by
  intro k hk
  rw [List.eq_of_mem_replicate hk]
  exact Nat.zero_le n

/-- An empty `keyboard_input` holds nothing. -/
theorem keyboardInput_init_released : ¬ KeyHeld KeyboardInput.init.bytes := by
  rintro ⟨cs, u, hcs, hu⟩
  obtain ⟨cs', hcs', hheld⟩ := hostDecode_keyboardInput (r := KeyboardInput.init) rfl
    Keys.init_slots_le
  obtain rfl := Option.some.inj (hcs.symm.trans hcs')
  obtain ⟨-, hkey | ⟨m, hm, -⟩⟩ := (hheld u).mp hu
  · exact Keys.not_holds_init _ hkey
  · cases m <;> cases hm

/-- The other empty reports of the keyboard hold nothing either. -/
theorem keysInput_init_released (t : KeysReport) : ¬ KeyHeld t.init.bytes := by
  rintro ⟨cs, u, hcs, hu⟩
  have hinit : t.init = { t.init with keys := Keys.init } := by cases t <;> rfl
  obtain ⟨cs', hcs', hheld⟩ := hostDecode_keysInput (t := t) Keys.init_slots_le
  rw [← hinit] at hcs'
  obtain rfl := Option.some.inj (hcs.symm.trans hcs')
  exact Keys.not_holds_init _ ((hheld u).mp hu).2

theorem keyboardResetInputs_released : ∀ report ∈ keyboardResetInputs, ¬ KeyHeld report := by
  intro report hreport
  simp only [keyboardResetInputs, List.mem_cons, List.not_mem_nil, or_false] at hreport
  rcases hreport with rfl | rfl | rfl | rfl | rfl
  · exact keyboardInput_init_released
  · exact keysInput_init_released .consumer
  · exact keysInput_init_released .appleVendorKeyboard
  · exact keysInput_init_released .appleVendorTopCase
  · exact keysInput_init_released .genericDesktop

/-- An empty `pointing_input` holds no button. -/
theorem pointingInput_init_released : ¬ ButtonHeld PointingInput.init.bytes := by
  rintro ⟨cs, u, hcs, hpage, hu⟩
  rw [hostDecode_pointingInput (by decide) (by decide) (by decide) (by decide)] at hcs
  obtain rfl := Option.some.inj hcs
  rw [asserts_append, asserts_bits 0x09 1 32 rfl rfl rfl rfl] at hu
  rcases hu with ⟨-, i, -, hbit, -⟩ | ⟨v, -, hmem⟩
  · rw [show PointingInput.init.buttons.raw.toNat = 0 from rfl, Nat.zero_testBit] at hbit
    cases hbit
  · simp only [List.mem_cons, List.not_mem_nil, or_false, Control.mk.injEq] at hmem
    rcases hmem with ⟨rfl, -⟩ | ⟨rfl, -⟩ | ⟨rfl, -⟩ | ⟨rfl, -⟩ <;> cases hpage

theorem mem_resetSteps {inputs : List Bytes} {answers : ℕ → ResetAnswers}
    {p : Bytes × ResetAnswers} (hp : p ∈ resetSteps inputs answers) : p.1 ∈ inputs := by
  obtain ⟨q, hq, rfl⟩ := List.mem_map.mp hp
  exact List.fst_mem_of_mem_zipIdx hq

theorem resetSteps_ids (reportId : Bytes → Option UInt8) (inputs : List Bytes)
    (answers : ℕ → ResetAnswers) :
    (resetSteps inputs answers).map (fun p => reportId p.1) = inputs.map reportId := by
  have hfst : (resetSteps inputs answers).map Prod.fst = inputs := by
    rw [resetSteps, List.map_map]
    exact List.zipIdx_map_fst 0 inputs
  calc (resetSteps inputs answers).map (fun p => reportId p.1)
      = ((resetSteps inputs answers).map Prod.fst).map reportId := by rw [List.map_map]; rfl
    _ = inputs.map reportId := by rw [hfst]

/-- Exactly when a successful reset releases everything. For the keyboard: a descriptor cannot
be created for one of its five empty reports, so that an error is returned, or each of them is
accepted by `handleReport` or nothing was held under its report id. For the pointing device: the
same, with its single report. -/
theorem reset_releases (history : List (Bytes × PostAnswers)) (answers : ℕ → ResetAnswers) :
    (((keyboardReset answers (.posted history)).1 = .success →
        ∀ id ∈ [1, 2, 3, 4, 7],
          ¬ (keyboardReset answers (.posted history)).2.Holding keyboardReportId KeyHeld (some id)) ↔
      (∃ p ∈ resetSteps keyboardResetInputs answers,
        (createWithBytes p.2.create p.1).isOk = false) ∨
      ∀ p ∈ resetSteps keyboardResetInputs answers, p.2.post.accepts = true ∨
        ¬ (HidDevice.posted history).Holding keyboardReportId KeyHeld (keyboardReportId p.1)) ∧
    (((pointingReset answers (.posted history)).1 = .success →
        ¬ (pointingReset answers (.posted history)).2.Holding pointingReportId ButtonHeld none) ↔
      (createWithBytes (answers 0).create PointingInput.init.bytes).isOk = false ∨
      (answers 0).post.accepts = true ∨
        ¬ (HidDevice.posted history).Holding pointingReportId ButtonHeld none) := by
  refine ⟨?_, ?_⟩
  -- the five report ids are those of the empty reports, in another order
  · have hids : ∀ d : HidDevice,
        (∀ id ∈ [1, 2, 3, 4, 7], ¬ d.Holding keyboardReportId KeyHeld (some id)) ↔
        ∀ p ∈ resetSteps keyboardResetInputs answers,
          ¬ d.Holding keyboardReportId KeyHeld (keyboardReportId p.1) := by
      intro d
      simp only [resetSteps, keyboardResetInputs, List.zipIdx_cons, List.zipIdx_nil, List.map_cons,
        List.map_nil, List.forall_mem_cons, List.not_mem_nil, false_implies, implies_true, and_true]
      tauto
    rw [hids]
    refine HidDevice.postAll_releases ?_ ?_ _
    · rw [resetSteps_ids]
      decide
    · exact fun p hp => keyboardResetInputs_released _ (mem_resetSteps hp)
  · have hempty : ∀ p ∈ resetSteps pointingResetInputs answers, ¬ ButtonHeld p.1 := by
      intro p hp
      rw [List.mem_singleton.mp (mem_resetSteps hp)]
      exact pointingInput_init_released
    have h := HidDevice.postAll_releases
      (by rw [resetSteps_ids pointingReportId]; decide) hempty (.posted history)
    have hsteps : resetSteps pointingResetInputs answers =
        [(PointingInput.init.bytes, answers 0)] := rfl
    rw [hsteps] at h
    simp only [List.mem_singleton, forall_eq, exists_eq_left] at h
    exact h

/-- The answers of a system on which `handleReport` fails once. -/
def rejectFirst : ℕ → ResetAnswers
  | 0 => { post := { handleReport := .other 1 } }
  | _ => {}

/-- A `keyboard_input` with a key held. -/
def keyDown : KeyboardInput := { KeyboardInput.init with keys := Keys.init.insert 4 }

/-- The first empty report is rejected: the reset returns success, and the key stays held. -/
theorem reset_leaves_key_held :
    (keyboardReset rejectFirst (.posted [(keyDown.bytes, {})])).1 = .success ∧
      (keyboardReset rejectFirst (.posted [(keyDown.bytes, {})])).2.Holding keyboardReportId KeyHeld
        (some 1) := by
  refine ⟨by decide +kernel, keyDown.bytes, by decide +kernel, ?_⟩
  have hmax : (keyDown.keys.slots.all fun k => k.toNat ≤ 255) = true := by decide +kernel
  obtain ⟨cs, hcs, hheld⟩ := hostDecode_keyboardInput (r := keyDown) rfl
    fun k hk => of_decide_eq_true (List.all_eq_true.mp hmax k hk)
  have hkey : keyDown.keys.existsKey 4 = true := by decide +kernel
  exact ⟨cs, ⟨0x07, 4⟩, hcs, (hheld _).mpr ⟨rfl, Or.inl ⟨4, by decide, hkey, rfl⟩⟩⟩

end VirtualHidDevice
