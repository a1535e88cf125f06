import VirtualHidDevice.ExternalMethod

/-!
# The references of the driver's user client

Every function that holds a descriptor gives it back in each of its branches, and the user client
holds one reference to each of its devices.

* `createWithBytesIn_spec`, `postMemory_spec`, `resetLoop_spec`, `setReportIn_spec`,
  `postReportTo_spec` — what is held after each of them, and that they do what the models without
  references say.
* `UserClientObject.Inv` — what holds in every run.

`references_balanced` is the result: nothing faults, nothing leaks, and only reports that somebody
asked for are posted. `user_client_refined` connects the instance variables to `UserClient`.
-/

namespace VirtualHidDevice

open RefCount

/-! ## Descriptors are given back -/

section

variable {h : Heap DriverObject} {held : List ℕ}

/-- A descriptor with these bytes, or neither. -/
inductive Points (h : Heap DriverObject) : Option ℕ → Option Bytes → Prop where
  | null : Points h none none
  | memory (m : ℕ) (bytes : Bytes) (hm : h.content m = some (.memory bytes)) :
    Points h (some m) (some bytes)

/-- What creating a descriptor comes to: an error with nothing held, or a descriptor that is held
once. Either way as in `createWithBytes`. -/
inductive CreatesMemory (h : Heap DriverObject) (held : List ℕ) (answers : CreateAnswers)
    (bytes : Option Bytes) : Option Created → Prop where
  | fails (kr : IOReturn) (h' : Heap DriverObject) (hkr : kr ≠ .success)
    (hcreate : ∀ b, bytes = some b → createWithBytes answers b = .error kr)
    (howns : h'.Owns held) (hextends : Heap.Extends h h') :
    CreatesMemory h held answers bytes (some ((kr, none), h'))
  | creates (m : ℕ) (b : Bytes) (h' : Heap DriverObject) (hbytes : bytes = some b)
    (hcreate : createWithBytes answers b = .ok b) (howns : h'.Owns (m :: held))
    (hextends : Heap.Extends h h') (hm : h'.content m = some (.memory b)) :
    CreatesMemory h held answers bytes (some ((.success, some m), h'))

/-- In each case of an error after `Create`, the descriptor is released. -/
theorem createWithBytesIn_spec (howns : h.Owns held) (answers : CreateAnswers)
    (bytes : Option Bytes) :
    CreatesMemory h held answers bytes (createWithBytesIn answers bytes h) := by
  cases bytes with
  | none =>
    exact .fails .badArgument h IOReturn.noConfusion (fun _ hb => by cases hb) howns (.refl h)
  | some b =>
    have hnew := howns.create (.memory b)
    have hextends : Heap.Extends h (h.create (.memory b)).2 := Heap.extends_create
    obtain ⟨h', hrelease, howns', hextends'⟩ := hnew.release
    by_cases hcreate : answers.create = .success
    · by_cases hmap : answers.map = .success
      · by_cases hlen : b.length = answers.len b.length
        · have heq : createWithBytesIn answers (some b) h =
              some ((.success, some (h.create (.memory b)).1), (h.create (.memory b)).2) := by
            simp [createWithBytesIn, hcreate, hmap, ← hlen]
          rw [heq]
          refine .creates _ b _ rfl ?_ hnew hextends Heap.content_create_self
          simp [createWithBytes, hcreate, hmap, ← hlen]
        · have heq : createWithBytesIn answers (some b) h = some ((.noMemory, none), h') := by
            simp [createWithBytesIn, hcreate, hmap, hlen, hrelease]
          rw [heq]
          refine .fails _ _ IOReturn.noConfusion ?_ howns' (hextends.trans hextends')
          rintro _ ⟨⟩
          simp [createWithBytes, hcreate, hmap, hlen]
      · have heq : createWithBytesIn answers (some b) h = some ((answers.map, none), h') := by
          simp [createWithBytesIn, hcreate, hmap, hrelease]
        rw [heq]
        refine .fails _ _ hmap ?_ howns' (hextends.trans hextends')
        rintro _ ⟨⟩
        simp [createWithBytes, hcreate, hmap]
    · have heq : createWithBytesIn answers (some b) h = some ((answers.create, none), h) := by
        simp [createWithBytesIn, hcreate]
      rw [heq]
      refine .fails _ _ hcreate ?_ howns (.refl h)
      rintro _ ⟨⟩
      simp [createWithBytes, hcreate]

/-- A descriptor that is held is posted and released. -/
theorem postMemory_spec {memory : Option ℕ} {report : Option Bytes}
    (hpoints : Points h memory report) (howns : h.Owns (memory.toList ++ held))
    (answers : PostAnswers) (d : HidDevice) :
    ∃ h', postMemory answers memory d h = some (d.postReport answers report, h') ∧
      h'.Owns held ∧ Heap.Extends h h' := by
  cases hpoints with
  | null => exact ⟨h, rfl, howns, .refl h⟩
  | memory m bytes hm =>
    obtain ⟨h', hrelease, howns', hextends⟩ := Heap.Owns.release howns
    refine ⟨h', ?_, howns', hextends⟩
    have hget : h.get m = some (.memory bytes) := (howns.get List.mem_cons_self).trans hm
    simp [postMemory, readMemory, safeRelease, hget, hrelease]

/-- A descriptor is created, posted and released, unless it cannot be created. -/
theorem createAndPost_spec (howns : h.Owns held) (create : CreateAnswers) (bytes : Bytes)
    (post : PostAnswers) (d : HidDevice) :
    (∃ kr h', createWithBytesIn create (some bytes) h = some ((kr, none), h') ∧ kr ≠ .success ∧
      createWithBytes create bytes = .error kr ∧ h'.Owns held ∧ Heap.Extends h h') ∨
    ∃ memory h' h'', createWithBytesIn create (some bytes) h = some ((.success, memory), h') ∧
      createWithBytes create bytes = .ok bytes ∧
      postMemory post memory d h' = some (d.postReport post (some bytes), h'') ∧
      h''.Owns held ∧ Heap.Extends h h'' := by
  have hspec := createWithBytesIn_spec howns create (some bytes)
  generalize createWithBytesIn create (some bytes) h = created at hspec ⊢
  cases hspec with
  | fails kr h' hkr hcreate howns' hextends =>
    exact .inl ⟨kr, h', rfl, hkr, hcreate bytes rfl, howns', hextends⟩
  | creates m b h' hbytes hcreate howns' hextends hm =>
    obtain rfl := Option.some.inj hbytes
    have hheld : h'.Owns ((some m).toList ++ held) := howns'
    obtain ⟨h'', hpost, howns'', hextends'⟩ := postMemory_spec (.memory m bytes hm) hheld post d
    exact .inr ⟨some m, h', h'', rfl, hcreate, hpost, howns'', hextends.trans hextends'⟩

/-- The loop of `reset` holds one descriptor at a time, and does what `HidDevice.postAll` says. -/
theorem resetLoop_spec (steps : List (Bytes × ResetAnswers)) (d : HidDevice)
    (howns : h.Owns held) : ∃ h', resetLoop steps d h = some (d.postAll steps, h') ∧
      h'.Owns held ∧ Heap.Extends h h' := by
  induction steps generalizing d h with
  | nil => exact ⟨h, rfl, howns, .refl h⟩
  | cons step rest ih =>
    obtain ⟨bytes, answers⟩ := step
    rw [resetLoop, HidDevice.postAll]
    rcases createAndPost_spec howns answers.create bytes answers.post d with
      ⟨kr, h', hcreated, hkr, hcreate, howns', hextends⟩ |
      ⟨memory, h', h'', hcreated, hcreate, hpost, howns', hextends⟩
    · rw [hcreated, hcreate, Option.bind_some]
      exact ⟨h', if_pos hkr, howns', hextends⟩
    · obtain ⟨last, hlast, hownsLast, hextendsLast⟩ :=
        ih (d.postReport answers.post (some bytes)).2 howns'
      rw [hcreated, hcreate, Option.bind_some]
      refine ⟨last, ?_, hownsLast, hextends.trans hextendsLast⟩
      dsimp only
      rw [if_neg fun hne => hne rfl, hpost]
      exact hlast

/-- `setReport` gives back its descriptor, and does what `VirtualHidKeyboard.setReport` says. -/
theorem setReportIn_spec (call : SetReportCall) (k : VirtualHidKeyboard) (howns : h.Owns held) :
    ∃ h', setReportIn call k h = some (k.setReport call, h') ∧
      h'.Owns held ∧ Heap.Extends h h' := by
  -- the checks before a descriptor is created are those of `VirtualHidKeyboard.setReport`
  have hsame : ∀ {r}, setReportIn call k h = some (r, h) → k.setReport call = r →
      ∃ h', setReportIn call k h = some (k.setReport call, h') ∧ h'.Owns held ∧
        Heap.Extends h h' := by
    rintro r hin rfl
    exact ⟨h, hin, howns, .refl h⟩
  cases hreport : call.report with
  | none =>
    refine hsame (r := (.badArgument, k)) ?_ ?_ <;>
      simp [setReportIn, VirtualHidKeyboard.setReport, hreport]
  | some bytes =>
    by_cases hmap : call.map = .success
    · rcases bytes with _ | ⟨reportId, _ | ⟨state, rest⟩⟩
      · refine hsame (r := (.badArgument, k)) ?_ ?_ <;>
          simp [setReportIn, VirtualHidKeyboard.setReport, hreport, hmap]
      · refine hsame (r := (.badArgument, k)) ?_ ?_ <;>
          simp [setReportIn, VirtualHidKeyboard.setReport, hreport, hmap]
      · by_cases hid : reportId = 5
        · by_cases hlast : k.lastLedState = state
          · refine hsame (r := (.success, k)) ?_ ?_ <;>
              simp [setReportIn, VirtualHidKeyboard.setReport, hreport, hmap, hid, hlast]
          · simp only [setReportIn, VirtualHidKeyboard.setReport, hreport, hmap, hid, hlast, ne_eq,
              not_true_eq_false, if_false]
            rcases createAndPost_spec howns call.create [6, state] call.post k.toHidDevice with
              ⟨kr, h', hcreated, hkr, hcreate, howns', hextends⟩ |
              ⟨memory, h', h'', hcreated, hcreate, hpost, howns', hextends⟩
            · rw [hcreated, hcreate]
              exact ⟨h', if_pos hkr, howns', hextends⟩
            · rw [hcreated, hcreate]
              refine ⟨h'', ?_, howns', hextends⟩
              dsimp only [Option.bind_some]
              rw [if_neg fun hne => hne rfl, hpost]
              rfl
        · refine hsame (r := (.unsupported, k)) ?_ ?_ <;>
            simp [setReportIn, VirtualHidKeyboard.setReport, hreport, hmap, hid]
    · refine hsame (r := (call.map, k)) ?_ ?_ <;>
        simp [setReportIn, VirtualHidKeyboard.setReport, hreport, hmap]

/-- The report that a call has in its arguments, directly or as a descriptor of the caller. -/
def MethodArguments.Reports (arguments : MethodArguments) (h : Heap DriverObject)
    (report : Bytes) : Prop :=
  arguments.structureInput = some (some report) ∨ arguments.structureInput = none ∧
    ∃ m, arguments.structureInputDescriptor = some m ∧ h.content m = some (.memory report)

/-- A descriptor of the report, held once by the callee, or an error and none. -/
theorem createIOMemoryDescriptor_spec (howns : h.Owns held) (arguments : MethodArguments)
    (hcaller : ∀ m ∈ arguments.structureInputDescriptor,
      m ∈ held ∧ ∃ bytes, h.content m = some (.memory bytes)) (answers : CreateAnswers) :
    ∃ kr memory report h',
      createIOMemoryDescriptor arguments answers h = some ((kr, memory), h') ∧
      h'.Owns (memory.toList ++ held) ∧ Heap.Extends h h' ∧ Points h' memory report ∧
      (kr ≠ .success → memory = none) ∧ ∀ b, report = some b → arguments.Reports h b := by
  rw [createIOMemoryDescriptor]
  cases hinput : arguments.structureInput with
  | some bytes =>
    have hspec := createWithBytesIn_spec howns answers bytes
    dsimp only
    generalize createWithBytesIn answers bytes h = created at hspec ⊢
    cases hspec with
    | fails kr h' hkr hcreate howns' hextends =>
      exact ⟨kr, none, none, h', rfl, howns', hextends, .null, fun _ => rfl,
        fun _ hb => by cases hb⟩
    | creates m b h' hbytes hcreate howns' hextends hm =>
      refine ⟨.success, some m, some b, h', rfl, howns', hextends, .memory m b hm,
        fun hne => absurd rfl hne, ?_⟩
      rintro _ ⟨⟩
      exact .inl (hinput.trans (congrArg some hbytes))
  | none =>
    cases hdescriptor : arguments.structureInputDescriptor with
    | none =>
      exact ⟨.success, none, none, h, rfl, howns, .refl h, .null, fun _ => rfl,
        fun _ hb => by cases hb⟩
    | some m =>
      obtain ⟨hheld, b, hm⟩ := hcaller m hdescriptor
      obtain ⟨h', hretain, howns', hextends⟩ := howns.retain hheld
      refine ⟨.success, some m, some b, h', ?_, howns', hextends, .memory m b (hextends m _ hm),
        fun hne => absurd rfl hne, ?_⟩
      · dsimp only
        rw [hretain]
        rfl
      · rintro _ ⟨⟩
        exact .inr ⟨hinput, m, hdescriptor, hm⟩

/-- Posting a report does what `HidDevice.postReport` says, if it gets that far, and holds nothing
in the end. -/
theorem postReportTo_spec (howns : h.Owns held) (arguments : MethodArguments)
    (hcaller : ∀ m ∈ arguments.structureInputDescriptor,
      m ∈ held ∧ ∃ bytes, h.content m = some (.memory bytes)) (answers : MethodAnswers)
    (d : HidDevice) : ∃ posted h',
      UserClientObject.postReportTo arguments answers d h = some (posted, h') ∧ h'.Owns held ∧
      Heap.Extends h h' ∧ (posted.2 = d ∨ ∃ report, posted = d.postReport answers.post report ∧
        ∀ b, report = some b → arguments.Reports h b) := by
  obtain ⟨kr, memory, report, h', hcreated, howns', hextends, hpoints, hfails, hreports⟩ :=
    createIOMemoryDescriptor_spec howns arguments hcaller answers.memory
  rw [UserClientObject.postReportTo, hcreated, Option.bind_some]
  by_cases hkr : kr = .success
  · obtain ⟨h'', hpost, howns'', hextends''⟩ := postMemory_spec hpoints howns' answers.post d
    refine ⟨_, h'', ?_, howns'', hextends.trans hextends'', .inr ⟨report, rfl, hreports⟩⟩
    dsimp only
    rw [if_neg fun hne => hne hkr]
    exact hpost
  · obtain rfl := hfails hkr
    exact ⟨(kr, d), h', if_pos hkr, howns', hextends, .inl rfl⟩

end

/-! ## The reports -/

section

variable {P : Bytes → Prop} {d : HidDevice}

theorem HidDevice.postReport_all (hd : ∀ r ∈ d.accepted, P r) (answers : PostAnswers)
    {report : Option Bytes} (hreport : ∀ b, report = some b → P b) :
    ∀ r ∈ (d.postReport answers report).2.accepted, P r := by
  cases report with
  | none => exact hd
  | some b =>
    rw [HidDevice.postReport_accepted]
    intro r hr
    rcases List.mem_append.mp hr with hold | hnew
    · exact hd r hold
    · split at hnew
      next =>
        rw [List.mem_singleton.mp hnew]
        exact hreport b rfl
      next => exact absurd hnew List.not_mem_nil

theorem HidDevice.postAll_all {steps : List (Bytes × ResetAnswers)} (hsteps : ∀ p ∈ steps, P p.1)
    (hd : ∀ r ∈ d.accepted, P r) : ∀ r ∈ (d.postAll steps).2.accepted, P r := by
  induction steps generalizing d with
  | nil => exact hd
  | cons step rest ih =>
    obtain ⟨bytes, answers⟩ := step
    rw [HidDevice.postAll]
    split
    next => exact hd
    next memory hcreate =>
      obtain rfl := createWithBytes_ok hcreate
      refine ih (fun p hp => hsteps p (List.mem_cons_of_mem _ hp))
        (HidDevice.postReport_all hd answers.post ?_)
      rintro _ ⟨⟩
      exact hsteps _ List.mem_cons_self

theorem VirtualHidKeyboard.setReport_all {k : VirtualHidKeyboard} {call : SetReportCall}
    (hcall : ∀ state rest, call.report = some (5 :: state :: rest) → P [6, state])
    (hk : ∀ r ∈ k.accepted, P r) : ∀ r ∈ (k.setReport call).2.accepted, P r := by
  cases hnew : k.newState call with
  | none =>
    rw [VirtualHidKeyboard.setReport_of_none hnew]
    exact hk
  | some state =>
    rw [(VirtualHidKeyboard.setReport_of_some hnew).2]
    split
    next => exact hk
    next memory hcreate =>
      obtain rfl := createWithBytes_ok hcreate
      refine HidDevice.postReport_all hk call.post ?_
      rintro _ ⟨⟩
      rw [VirtualHidKeyboard.newState] at hnew
      split at hnew
      next state' rest hreport _ =>
        split at hnew
        next => cases hnew
        next =>
          obtain rfl := Option.some.inj hnew
          exact hcall state' rest hreport
      next => cases hnew

end

/-- A report that a caller of the two methods has asked for. -/
def Requested (post reset : UserClientMethod) (inputs : List Bytes)
    (labels : List UserClientLabel) (h : Heap DriverObject) (report : Bytes) : Prop :=
  ∃ selector arguments answers, .externalMethod selector arguments answers ∈ labels ∧
    (UserClientMethod.ofSelector selector = some post ∧ arguments.Reports h report ∨
      UserClientMethod.ofSelector selector = some reset ∧ report ∈ inputs)

/-- The reports of the keyboard: a caller's, an empty one of a reset, or the new LED state. -/
def KeyboardReport (labels : List UserClientLabel) (h : Heap DriverObject) (report : Bytes) :
    Prop :=
  Requested .virtualHidKeyboardPostReport .virtualHidKeyboardReset keyboardResetInputs labels h
      report ∨
    ∃ call state rest, .setReport call ∈ labels ∧ call.report = some (5 :: state :: rest) ∧
      report = [6, state]

/-- The reports of the pointing device: a caller's, or the empty one of a reset. -/
def PointingReport : List UserClientLabel → Heap DriverObject → Bytes → Prop :=
  Requested .virtualHidPointingPostReport .virtualHidPointingReset pointingResetInputs

section

variable {h h' : Heap DriverObject} {report : Bytes} {past labels : List UserClientLabel}

theorem MethodArguments.Reports.mono {arguments : MethodArguments}
    (hreports : arguments.Reports h report) (hextends : Heap.Extends h h') :
    arguments.Reports h' report :=
  hreports.imp_right fun ⟨hnone, m, hm, hcontent⟩ => ⟨hnone, m, hm, hextends m _ hcontent⟩

theorem Requested.mono {post reset : UserClientMethod} {inputs : List Bytes}
    (hrequested : Requested post reset inputs past h report) (hlabels : past ⊆ labels)
    (hextends : Heap.Extends h h') : Requested post reset inputs labels h' report := by
  obtain ⟨selector, arguments, answers, hmem, hmethod⟩ := hrequested
  exact ⟨selector, arguments, answers, hlabels hmem,
    hmethod.imp_left fun ⟨hpost, hreports⟩ => ⟨hpost, hreports.mono hextends⟩⟩

theorem KeyboardReport.mono (hreport : KeyboardReport past h report) (hlabels : past ⊆ labels)
    (hextends : Heap.Extends h h') : KeyboardReport labels h' report := by
  rcases hreport with hrequested | ⟨call, state, rest, hmem, hcall, rfl⟩
  · exact .inl (hrequested.mono hlabels hextends)
  · exact .inr ⟨call, state, rest, hlabels hmem, hcall, rfl⟩

end

/-! ## The invariant -/

namespace UserClientObject

/-- All references that somebody holds. -/
def held (s : UserClientObject) : List ℕ :=
  s.callers ++ (s.keyboard.toList ++ s.pointing.toList)

/-- The invariant of all runs. -/
structure Inv (labels : List UserClientLabel) (s : UserClientObject) : Prop where
  /-- nothing is released too often or leaked -/
  owns : s.heap.Owns s.held
  /-- callers hold descriptors -/
  callers : ∀ m ∈ s.callers, ∃ bytes, s.heap.content m = some (.memory bytes)
  /-- what the host was told by the keyboard -/
  keyboardReports : ∀ r ∈ s.keyboardDevice.accepted, KeyboardReport labels s.heap r
  /-- and by the pointing device -/
  pointingReports : ∀ r ∈ s.pointingDevice.accepted, PointingReport labels s.heap r
  /-- the devices are given back -/
  freed : s.freed = true → s.keyboard = none ∧ s.pointing = none

theorem Inv.init : Inv [] {} where
  owns _ := rfl
  callers _ h := absurd h List.not_mem_nil
  keyboardReports _ h := absurd h List.not_mem_nil
  pointingReports _ h := absurd h List.not_mem_nil
  freed h := Bool.noConfusion h

variable {past labels : List UserClientLabel} {s t : UserClientObject}

theorem Inv.mono (h : s.Inv past) (hlabels : past ⊆ labels) : s.Inv labels where
  owns := h.owns
  callers := h.callers
  keyboardReports r hr := (h.keyboardReports r hr).mono hlabels (.refl _)
  pointingReports r hr := Requested.mono (h.pointingReports r hr) hlabels (.refl _)
  freed := h.freed

/-- Objects come, others stay, and the references change as the holders say. -/
theorem Inv.of_heap (h : s.Inv labels) (howns : t.heap.Owns t.held)
    (hextends : Heap.Extends s.heap t.heap)
    (hcallers : ∀ m ∈ t.callers, m ∈ s.callers ∨ ∃ bytes, t.heap.content m = some (.memory bytes))
    (hkeyboard : ∀ r ∈ t.keyboardDevice.accepted,
      r ∈ s.keyboardDevice.accepted ∨ KeyboardReport labels t.heap r)
    (hpointing : ∀ r ∈ t.pointingDevice.accepted,
      r ∈ s.pointingDevice.accepted ∨ PointingReport labels t.heap r)
    (hfreed : t.freed = true → t.keyboard = none ∧ t.pointing = none) : t.Inv labels where
  owns := howns
  callers m hm := (hcallers m hm).elim
    (fun hold => (h.callers m hold).imp fun _ hcontent => hextends m _ hcontent) id
  keyboardReports r hr := (hkeyboard r hr).elim
    (fun hold => (h.keyboardReports r hold).mono (List.Subset.refl _) hextends) id
  pointingReports r hr := (hpointing r hr).elim
    (fun hold => Requested.mono (h.pointingReports r hold) (List.Subset.refl _) hextends) id
  freed := hfreed

/-- A method of a device that is there, or is missing. -/
theorem Inv.useDevice (h : s.Inv labels) {device : Option ℕ} (hheld : ∀ i ∈ device, i ∈ s.held)
    {Q : MethodResult → Prop} {missing : MethodResult} {method : Option MethodResult}
    (hmissing : Q missing) (hmethod : ∃ result, method = some result ∧ Q result) :
    ∃ result, s.useDevice device missing method = some result ∧ Q result := by
  cases device with
  | none => exact ⟨missing, rfl, hmissing⟩
  | some i =>
    obtain ⟨object, hget⟩ := h.owns.exists_get (hheld i rfl)
    rw [UserClientObject.useDevice, hget, Option.bind_some]
    exact hmethod

theorem mem_held_keyboard (s : UserClientObject) : ∀ i ∈ s.keyboard, i ∈ s.held := by
  intro i hi
  refine List.mem_append_right _ (List.mem_append_left _ ?_)
  exact Option.mem_toList.mpr hi

theorem mem_held_pointing (s : UserClientObject) : ∀ i ∈ s.pointing, i ∈ s.held := by
  intro i hi
  refine List.mem_append_right _ (List.mem_append_right _ ?_)
  exact Option.mem_toList.mpr hi

theorem driverVersion_client (s : UserClientObject) (arguments : MethodArguments) :
    (s.driverVersion arguments).client = s := by
  rw [UserClientObject.driverVersion]
  split <;> rfl

theorem Inv.deviceReady (h : s.Inv labels) {device : Option ℕ} (hheld : ∀ i ∈ device, i ∈ s.held)
    (arguments : MethodArguments) (answers : MethodAnswers) :
    ∃ result, s.deviceReady device arguments answers = some result ∧ result.client = s := by
  rw [UserClientObject.deviceReady]
  split
  next => exact h.useDevice hheld rfl ⟨_, rfl, rfl⟩
  next => exact ⟨_, rfl, rfl⟩

/-! ## The calls of the daemon -/

/-- A device that is held stays what it is. -/
theorem Inv.bind_content (h : s.Inv labels) {device : Option ℕ} (hheld : ∀ i ∈ device, i ∈ s.held)
    {heap : Heap DriverObject} (hextends : Heap.Extends s.heap heap) :
    device.bind heap.content = device.bind s.heap.content := by
  cases device with
  | none => rfl
  | some i =>
    obtain ⟨object, hget⟩ := h.owns.exists_get (hheld i rfl)
    have hcontent : s.heap.content i = some object :=
      (h.owns.get (hheld i rfl)).symm.trans hget
    exact (hextends i object hcontent).trans hcontent.symm

/-- Steps that leave the instance variables alone. -/
theorem Inv.represents (h : s.Inv labels) {u : UserClient} (hu : s.Represents u)
    (hextends : Heap.Extends s.heap t.heap) (hidentity : t.identity = s.identity)
    (hkeyboard : t.keyboard = s.keyboard) (hpointing : t.pointing = s.pointing) :
    t.Represents u where
  identity := hu.identity.trans hidentity.symm
  keyboard := by
    rw [hkeyboard, h.bind_content s.mem_held_keyboard hextends]
    exact hu.keyboard
  pointing := by
    rw [hpointing, h.bind_content s.mem_held_pointing hextends]
    exact hu.pointing

/-- Whether there is a device, it is the same for both. -/
theorem isNone_of_content {device : Option ℕ} (h : s.Inv labels)
    (hheld : ∀ i ∈ device, i ∈ s.held) {other : Option Device} {f : Device → DriverObject}
    (heq : device.bind s.heap.content = other.map f) : other.isNone = device.isNone := by
  cases device with
  | none =>
    rw [Option.map_eq_none_iff.mp heq.symm]
    rfl
  | some i =>
    obtain ⟨object, hget⟩ := h.owns.exists_get (hheld i rfl)
    have hcontent : s.heap.content i = some object :=
      (h.owns.get (hheld i rfl)).symm.trans hget
    obtain ⟨d, rfl, -⟩ := Option.map_eq_some_iff.mp (heq.symm.trans hcontent)
    rfl

theorem requestedIdentity_of_parameters {arguments : MethodArguments} {input : Parameters}
    (h : arguments.parameters = some input) :
    s.requestedIdentity arguments = .ofInput input := by
  rw [MethodArguments.parameters] at h
  rw [requestedIdentity]
  split at h
  next =>
    obtain rfl := Option.some.inj h
    rfl
  next => cases h

/-- A keyboard is created once, and what is not a keyboard is released. With three scalars this
does what `UserClient.keyboardInitialize` says. -/
theorem Inv.keyboardInitialize (h : s.Inv labels) (hfreed : s.freed = false)
    (arguments : MethodArguments) (answers : MethodAnswers) :
    ∃ result, s.keyboardInitialize arguments answers = some result ∧
      result.client.Inv labels ∧ ∀ u input, s.Represents u → arguments.parameters = some input →
        result.client.Represents (u.keyboardInitialize input answers.createAnswer) := by
  have hidentity : { s with identity := s.requestedIdentity arguments }.Inv labels :=
    ⟨h.owns, h.callers, h.keyboardReports, h.pointingReports, h.freed⟩
  have hnone : ∀ {u : UserClient}, s.Represents u → u.keyboard.isNone = s.keyboard.isNone :=
    fun hu => isNone_of_content h s.mem_held_keyboard hu.keyboard
  cases hkeyboard : s.keyboard with
  | some keyboard =>
    refine ⟨_, if_pos (by rw [hkeyboard]; rfl), h, fun u input hu _ => ?_⟩
    have hsame : u.keyboardInitialize input answers.createAnswer = u := by
      have hsome : u.keyboard.isNone = false :=
        (hnone hu).trans (congrArg Option.isNone hkeyboard)
      cases hanswer : answers.createAnswer <;> simp [UserClient.keyboardInitialize, hsome]
    rw [hsame]
    exact hu
  | none =>
    have hmissing : s.keyboard.isSome ≠ true := by
      rw [hkeyboard]
      exact Bool.noConfusion
    -- what `UserClient` does without a keyboard
    have hwithout : ∀ {u : UserClient}, s.Represents u → u.keyboard.isNone = true :=
      fun hu => (hnone hu).trans (congrArg Option.isNone hkeyboard)
    have hfails : ∀ {u : UserClient} {input}, s.Represents u →
        answers.createAnswer = .createFailed →
        u.keyboardInitialize input answers.createAnswer =
          { u with identity := .ofInput input } := by
      intro u input hu hanswer
      rw [hanswer]
      exact if_pos (hwithout hu)
    rw [UserClientObject.keyboardInitialize, if_neg hmissing]
    dsimp only
    by_cases hcreate : answers.create = .success
    · rw [if_neg fun hne => hne hcreate]
      cases hcast : answers.cast with
      | true =>
        have hnew := h.owns.create (.keyboard (s.requestedIdentity arguments))
        have hextends := Heap.extends_create (h := s.heap)
          (a := .keyboard (s.requestedIdentity arguments))
        refine ⟨_, rfl, h.of_heap (hnew.perm ?_) hextends (fun _ hm => .inl hm)
          (fun _ hr => absurd hr List.not_mem_nil) (fun _ hr => .inl hr) fun hfree => ?_, ?_⟩
        · rw [held, held, hkeyboard]
          exact List.perm_middle.symm
        · exact absurd (hfreed.symm.trans hfree) Bool.false_ne_true
        · intro u input hu hinput
          have hanswer : answers.createAnswer = .created := if_pos ⟨hcreate, hcast⟩
          rw [hanswer, UserClient.keyboardInitialize]
          dsimp only
          rw [if_pos (hwithout hu)]
          refine ⟨(requestedIdentity_of_parameters hinput).symm, ?_,
            (h.bind_content s.mem_held_pointing hextends).trans hu.pointing⟩
          dsimp only
          rw [Option.bind_some, Option.map_some, ← requestedIdentity_of_parameters hinput]
          exact Heap.content_create_self
      | false =>
        have hnew := h.owns.create (.service : DriverObject)
        obtain ⟨heap, hrelease, howns, hextends⟩ := hnew.release
        have hextends' := Heap.extends_create.trans hextends
        refine ⟨{ kr := .error, client := { s with
            identity := s.requestedIdentity arguments, heap } }, ?_, ?_, ?_⟩
        · simp only [Bool.false_eq_true, if_false]
          rw [hrelease]
          rfl
        · exact h.of_heap howns hextends' (fun _ hm => .inl hm)
            (fun _ hr => .inl hr) (fun _ hr => .inl hr) h.freed
        · intro u input hu hinput
          rw [hfails hu (if_neg fun hboth => by rw [hcast] at hboth; cases hboth.2)]
          exact ⟨(requestedIdentity_of_parameters hinput).symm,
            (h.bind_content s.mem_held_keyboard hextends').trans hu.keyboard,
            (h.bind_content s.mem_held_pointing hextends').trans hu.pointing⟩
    · rw [if_pos hcreate]
      refine ⟨_, rfl, hidentity, fun u input hu hinput => ?_⟩
      rw [hfails hu (if_neg fun hboth => hcreate hboth.1)]
      exact ⟨(requestedIdentity_of_parameters hinput).symm, hu.keyboard, hu.pointing⟩

/-- And so is a pointing device. -/
theorem Inv.pointingInitialize (h : s.Inv labels) (hfreed : s.freed = false)
    (answers : MethodAnswers) :
    ∃ result, s.pointingInitialize answers = some result ∧ result.client.Inv labels ∧
      ∀ u, s.Represents u →
        result.client.Represents (u.pointingInitialize answers.createAnswer) := by
  have hnone : ∀ {u : UserClient}, s.Represents u → u.pointing.isNone = s.pointing.isNone :=
    fun hu => isNone_of_content h s.mem_held_pointing hu.pointing
  have hfails : ∀ {u : UserClient}, answers.createAnswer = .createFailed →
      u.pointingInitialize answers.createAnswer = u := by
    intro u hanswer
    rw [hanswer]
    rfl
  cases hpointing : s.pointing with
  | some pointing =>
    refine ⟨_, if_pos (by rw [hpointing]; rfl), h, fun u hu => ?_⟩
    have hsame : u.pointingInitialize answers.createAnswer = u := by
      have hsome : u.pointing.isNone = false :=
        (hnone hu).trans (congrArg Option.isNone hpointing)
      cases hanswer : answers.createAnswer <;> simp [UserClient.pointingInitialize, hsome]
    rw [hsame]
    exact hu
  | none =>
    have hmissing : s.pointing.isSome ≠ true := by
      rw [hpointing]
      exact Bool.noConfusion
    rw [UserClientObject.pointingInitialize, if_neg hmissing]
    by_cases hcreate : answers.create = .success
    · rw [if_neg fun hne => hne hcreate]
      cases hcast : answers.cast with
      | true =>
        have hnew := h.owns.create (.pointing : DriverObject)
        have hextends := Heap.extends_create (h := s.heap) (a := (.pointing : DriverObject))
        refine ⟨_, rfl, h.of_heap (hnew.perm ?_) hextends (fun _ hm => .inl hm)
          (fun _ hr => .inl hr) (fun _ hr => absurd hr List.not_mem_nil) fun hfree => ?_, ?_⟩
        · rw [held, held, hpointing, ← List.append_assoc, Option.toList_none, List.append_nil,
            ← List.append_assoc]
          exact (List.perm_append_singleton _ _).symm
        · exact absurd (hfreed.symm.trans hfree) Bool.false_ne_true
        · intro u hu
          have hsome : u.pointing.isNone = true :=
            (hnone hu).trans (congrArg Option.isNone hpointing)
          have hanswer : answers.createAnswer = .created := if_pos ⟨hcreate, hcast⟩
          rw [hanswer, UserClient.pointingInitialize]
          dsimp only
          rw [if_pos hsome]
          exact ⟨hu.identity, (h.bind_content s.mem_held_keyboard hextends).trans hu.keyboard,
            Heap.content_create_self⟩
      | false =>
        have hnew := h.owns.create (.service : DriverObject)
        obtain ⟨heap, hrelease, howns, hextends⟩ := hnew.release
        have hextends' := Heap.extends_create.trans hextends
        refine ⟨{ kr := .error, client := { s with heap } }, ?_, ?_, fun u hu => ?_⟩
        · simp only [Bool.false_eq_true, if_false]
          rw [hrelease]
          rfl
        · exact h.of_heap howns hextends' (fun _ hm => .inl hm)
            (fun _ hr => .inl hr) (fun _ hr => .inl hr) h.freed
        · rw [hfails (if_neg fun hboth => by rw [hcast] at hboth; cases hboth.2)]
          exact h.represents hu hextends' rfl rfl rfl
    · rw [if_pos hcreate]
      refine ⟨_, rfl, h, fun u hu => ?_⟩
      rw [hfails (if_neg fun hboth => hcreate hboth.1)]
      exact hu

/-- A device posts reports: nothing faults, what was held is held, and each report was asked for. -/
def Posts (s : UserClientObject) (Asked : Heap DriverObject → Bytes → Prop) (d : HidDevice)
    (posted : Option ((IOReturn × HidDevice) × Heap DriverObject)) : Prop :=
  ∃ result, posted = some result ∧ result.2.Owns s.held ∧ Heap.Extends s.heap result.2 ∧
    ∀ r ∈ result.1.2.accepted, r ∈ d.accepted ∨ Asked result.2 r

/-- The keyboard, if it is there, has posted reports. -/
theorem Inv.useKeyboard (h : s.Inv labels)
    {posted : Option ((IOReturn × HidDevice) × Heap DriverObject)}
    (hposts : s.Posts (Requested .virtualHidKeyboardPostReport .virtualHidKeyboardReset
      keyboardResetInputs labels) s.keyboardDevice.toHidDevice posted) :
    ∃ result, s.useDevice s.keyboard { kr := .error, client := s }
        (posted.map s.setKeyboardDevice) = some result ∧
      result.client.Inv labels ∧ ∀ u, s.Represents u → result.client.Represents u := by
  obtain ⟨result, rfl, howns, hextends, hreports⟩ := hposts
  refine h.useDevice s.mem_held_keyboard ⟨h, fun _ hu => hu⟩
    ⟨_, rfl, ?_, fun _ hu => h.represents hu hextends rfl rfl rfl⟩
  exact h.of_heap howns hextends (fun _ hm => .inl hm)
    (fun r hr => (hreports r hr).imp_right .inl) (fun _ hr => .inl hr) h.freed

/-- And the pointing device. -/
theorem Inv.usePointing (h : s.Inv labels)
    {posted : Option ((IOReturn × HidDevice) × Heap DriverObject)}
    (hposts : s.Posts (PointingReport labels) s.pointingDevice posted) :
    ∃ result, s.useDevice s.pointing { kr := .error, client := s }
        (posted.map s.setPointingDevice) = some result ∧
      result.client.Inv labels ∧ ∀ u, s.Represents u → result.client.Represents u := by
  obtain ⟨result, rfl, howns, hextends, hreports⟩ := hposts
  refine h.useDevice s.mem_held_pointing ⟨h, fun _ hu => hu⟩
    ⟨_, rfl, ?_, fun _ hu => h.represents hu hextends rfl rfl rfl⟩
  exact h.of_heap howns hextends (fun _ hm => .inl hm) (fun _ hr => .inl hr) hreports h.freed

section

variable {selector : UInt64} {arguments : MethodArguments} {answers : MethodAnswers}
  {post reset : UserClientMethod} {inputs : List Bytes}

/-- What a device posts when a report is given to it. -/
theorem Inv.postReportTo (h : s.Inv labels)
    (hmem : .externalMethod selector arguments answers ∈ labels)
    (hmethod : UserClientMethod.ofSelector selector = some post)
    (hcaller : ∀ m ∈ arguments.structureInputDescriptor, m ∈ s.callers) (d : HidDevice) :
    s.Posts (Requested post reset inputs labels) d
      (UserClientObject.postReportTo arguments answers d s.heap) := by
  have hheld : ∀ m ∈ arguments.structureInputDescriptor,
      m ∈ s.held ∧ ∃ bytes, s.heap.content m = some (.memory bytes) := fun m hm =>
    ⟨List.mem_append_left _ (hcaller m hm), h.callers m (hcaller m hm)⟩
  obtain ⟨posted, heap, hpost, howns, hextends, hreports⟩ :=
    postReportTo_spec h.owns arguments hheld answers d
  refine ⟨(posted, heap), hpost, howns, hextends, ?_⟩
  rcases hreports with hsame | ⟨report, rfl, hreport⟩
  · exact fun r hr => .inl (hsame ▸ hr)
  · refine HidDevice.postReport_all (fun r hr => .inl hr) answers.post fun b hb => .inr ?_
    exact ⟨selector, arguments, answers, hmem, .inl ⟨hmethod, (hreport b hb).mono hextends⟩⟩

/-- What a device posts when it is reset. -/
theorem Inv.resetLoop (h : s.Inv labels)
    (hmem : .externalMethod selector arguments answers ∈ labels)
    (hmethod : UserClientMethod.ofSelector selector = some reset) (d : HidDevice) :
    s.Posts (Requested post reset inputs labels) d
      (VirtualHidDevice.resetLoop (resetSteps inputs answers.reset) d s.heap) := by
  obtain ⟨heap, hloop, howns, hextends⟩ :=
    resetLoop_spec (resetSteps inputs answers.reset) d h.owns
  refine ⟨_, hloop, howns, hextends, ?_⟩
  refine HidDevice.postAll_all (fun p hp => .inr ?_) fun r hr => .inl hr
  exact ⟨selector, arguments, answers, hmem, .inr ⟨hmethod, mem_resetSteps hp⟩⟩

/-- No method faults, every method keeps the invariant, and those that create a device do what
`UserClient` says. -/
theorem Inv.externalMethod (h : s.Inv labels)
    (hmem : .externalMethod selector arguments answers ∈ labels) (hfreed : s.freed = false)
    (hcaller : ∀ m ∈ arguments.structureInputDescriptor, m ∈ s.callers) :
    ∃ result, s.externalMethod selector arguments answers = some result ∧
      result.client.Inv labels ∧
      ∀ u, s.Represents u → (UserClientLabel.externalMethod selector arguments answers).Complete →
        result.client.Represents (u.observe (.externalMethod selector arguments answers)) := by
  rw [UserClientObject.externalMethod]
  simp only [UserClient.observe_externalMethod, UserClientLabel.Complete]
  cases hmethod : UserClientMethod.ofSelector selector with
  | none => exact ⟨_, rfl, h, fun _ hu _ => hu⟩
  | some method =>
    cases method with
    | driverVersion =>
      refine ⟨_, rfl, ?_, fun u hu _ => ?_⟩
      · rw [driverVersion_client]
        exact h
      · rw [driverVersion_client]
        exact hu
    | virtualHidKeyboardInitialize =>
      obtain ⟨result, hresult, hinv, hrefines⟩ := h.keyboardInitialize hfreed arguments answers
      refine ⟨result, hresult, hinv, fun u hu hcomplete => ?_⟩
      obtain ⟨input, hinput⟩ := Option.isSome_iff_exists.mp (hcomplete rfl)
      rw [hinput]
      exact hrefines u input hu hinput
    | virtualHidKeyboardReady =>
      obtain ⟨result, hresult, hsame⟩ := h.deviceReady s.mem_held_keyboard arguments answers
      exact ⟨result, hresult, hsame ▸ h, fun _ hu _ => hsame ▸ hu⟩
    | virtualHidKeyboardPostReport =>
      obtain ⟨result, hresult, hinv, hsame⟩ := h.useKeyboard (h.postReportTo hmem hmethod hcaller _)
      exact ⟨result, hresult, hinv, fun u hu _ => hsame u hu⟩
    | virtualHidKeyboardReset =>
      obtain ⟨result, hresult, hinv, hsame⟩ := h.useKeyboard (h.resetLoop hmem hmethod _)
      exact ⟨result, hresult, hinv, fun u hu _ => hsame u hu⟩
    | virtualHidPointingInitialize =>
      obtain ⟨result, hresult, hinv, hrefines⟩ := h.pointingInitialize hfreed answers
      exact ⟨result, hresult, hinv, fun u hu _ => hrefines u hu⟩
    | virtualHidPointingReady =>
      obtain ⟨result, hresult, hsame⟩ := h.deviceReady s.mem_held_pointing arguments answers
      exact ⟨result, hresult, hsame ▸ h, fun _ hu _ => hsame ▸ hu⟩
    | virtualHidPointingPostReport =>
      obtain ⟨result, hresult, hinv, hsame⟩ := h.usePointing (h.postReportTo hmem hmethod hcaller _)
      exact ⟨result, hresult, hinv, fun u hu _ => hsame u hu⟩
    | virtualHidPointingReset =>
      obtain ⟨result, hresult, hinv, hsame⟩ := h.usePointing (h.resetLoop hmem hmethod _)
      exact ⟨result, hresult, hinv, fun u hu _ => hsame u hu⟩

end

/-- A reference that may be null is released. -/
theorem safeRelease_spec {h : Heap DriverObject} {object : Option ℕ} {held : List ℕ}
    (howns : h.Owns (object.toList ++ held)) :
    ∃ h', safeRelease object h = some h' ∧ h'.Owns held ∧ Heap.Extends h h' := by
  cases object with
  | none => exact ⟨h, rfl, howns, .refl h⟩
  | some i => exact Heap.Owns.release howns

/-- Both devices are released. -/
theorem Inv.free (h : s.Inv labels) :
    ∃ t, s.free = some t ∧ t.Inv labels ∧ t.freed = true := by
  have hperm : s.held.Perm (s.keyboard.toList ++ (s.pointing.toList ++ s.callers)) := by
    rw [held, ← List.append_assoc s.keyboard.toList]
    exact List.perm_append_comm
  obtain ⟨heap, hkeyboard, howns, hextends⟩ := safeRelease_spec (h.owns.perm hperm)
  obtain ⟨heap', hpointing, howns', hextends'⟩ := safeRelease_spec howns
  refine ⟨{ s with heap := heap', keyboard := none, pointing := none, freed := true }, ?_, ?_,
    rfl⟩
  · rw [UserClientObject.free, hkeyboard, Option.bind_some, hpointing]
    rfl
  · have hlast : heap'.Owns (s.callers ++ []) := (List.append_nil s.callers).symm ▸ howns'
    exact h.of_heap hlast (hextends.trans hextends') (fun _ hm => .inl hm) (fun _ hr => .inl hr)
      (fun _ hr => .inl hr) fun _ => ⟨rfl, rfl⟩

/-! ## Every run -/

/-- No step that callers and the system may take faults, each keeps the invariant, and until
`free` each does what `UserClient` says. -/
theorem Inv.effect (h : s.Inv labels) {label : UserClientLabel} (henabled : s.Enabled label) :
    ∃ t, s.effect label = some t ∧ t.Inv (labels ++ [label]) ∧
      (t.freed = false → s.freed = false ∧
        ∀ u, s.Represents u → label.Complete → t.Represents (u.observe label)) := by
  have hmem : label ∈ labels ++ [label] := List.mem_append_right _ List.mem_cons_self
  have hmono : s.Inv (labels ++ [label]) := h.mono (List.subset_append_left _ _)
  cases label with
  | createMemory bytes =>
    have hextends := Heap.extends_create (h := s.heap) (a := DriverObject.memory bytes)
    refine ⟨_, rfl, hmono.of_heap (h.owns.create _) hextends (fun m hm => ?_)
      (fun _ hr => .inl hr) (fun _ hr => .inl hr) h.freed,
      fun hfreed => ⟨hfreed, fun _ hu _ => h.represents hu hextends rfl rfl rfl⟩⟩
    rcases List.mem_cons.mp hm with rfl | hold
    · exact .inr ⟨bytes, Heap.content_create_self⟩
    · exact .inl hold
  | releaseMemory memory =>
    have hmemory : memory ∈ s.callers := henabled
    have hperm : s.held.Perm
        (memory :: (s.callers.erase memory ++ (s.keyboard.toList ++ s.pointing.toList))) :=
      (List.perm_cons_erase hmemory).append_right _
    obtain ⟨heap, hrelease, howns, hextends⟩ := (h.owns.perm hperm).release
    refine ⟨{ s with heap, callers := s.callers.erase memory }, congrArg (Option.map _) hrelease,
      ?_, fun hfreed => ⟨hfreed, fun _ hu _ => h.represents hu hextends rfl rfl rfl⟩⟩
    exact hmono.of_heap howns hextends (fun m hm => .inl (List.mem_of_mem_erase hm))
      (fun _ hr => .inl hr) (fun _ hr => .inl hr) h.freed
  | externalMethod selector arguments answers =>
    obtain ⟨result, hresult, hinv, hrefines⟩ :=
      hmono.externalMethod hmem henabled.1 henabled.2
    exact ⟨result.client, congrArg (Option.map _) hresult, hinv,
      fun _ => ⟨henabled.1, hrefines⟩⟩
  | setReport call =>
    obtain ⟨heap, hset, howns, hextends⟩ := setReportIn_spec call s.keyboardDevice h.owns
    refine ⟨_, congrArg (Option.map _) hset, ?_,
      fun hfreed => ⟨hfreed, fun _ hu _ => h.represents hu hextends rfl rfl rfl⟩⟩
    refine hmono.of_heap howns hextends (fun _ hm => .inl hm) ?_ (fun _ hr => .inl hr) h.freed
    refine VirtualHidKeyboard.setReport_all (fun state rest hreport => .inr (.inr ?_))
      fun r hr => .inl hr
    exact ⟨call, state, rest, hmem, hreport, rfl⟩
  | free =>
    obtain ⟨t, ht, hinv, hfreed⟩ := hmono.free
    exact ⟨t, ht, hinv, fun hfalse => absurd (hfreed.symm.trans hfalse) Bool.false_ne_true.symm⟩

theorem Inv.step (h : s.Inv labels) {label : UserClientLabel} (hstep : s.step label = some t) :
    t.Inv (labels ++ [label]) ∧ (t.freed = false → s.freed = false ∧
      ∀ u, s.Represents u → label.Complete → t.Represents (u.observe label)) := by
  rw [UserClientObject.step] at hstep
  split at hstep
  next henabled =>
    obtain ⟨u, hu, hinv⟩ := h.effect henabled
    obtain rfl := Option.some.inj (hu.symm.trans hstep)
    exact hinv
  next => cases hstep

theorem inv_of_run (labels : List UserClientLabel)
    (h : Transition.run step {} labels = some s) : s.Inv labels :=
  Transition.run_history Inv.init (fun _ _ _ _ hu hstep => (hu.step hstep).1) h

/-- In every run of the user client, with any selectors, arguments and answers of the system: no
step faults, that is, no object is used or released to which there are no references. There is one
reference to each of its devices, and other objects have only the references of their callers, so
that nothing is leaked, and after `free` nothing is left. And a device posts the reports that its
callers have given to it, unchanged, the empty ones of a reset, and the LED states that the host
has set. -/
theorem references_balanced (labels : List UserClientLabel)
    (h : Transition.run step {} labels = some s) :
    (∀ label, s.Enabled label → ∃ t, s.step label = some t) ∧
    (∀ i, s.heap.count i = s.callers.count i +
      ((if s.keyboard = some i then 1 else 0) + if s.pointing = some i then 1 else 0)) ∧
    (s.freed = true → ∀ i, s.heap.count i = s.callers.count i) ∧
    (∀ r ∈ s.keyboardDevice.accepted, KeyboardReport labels s.heap r) ∧
    ∀ r ∈ s.pointingDevice.accepted, PointingReport labels s.heap r := by
  have hinv := inv_of_run labels h
  have hcount : ∀ (device : Option ℕ) (i : ℕ),
      device.toList.count i = if device = some i then 1 else 0 := by
    intro device i
    cases device with
    | none => rfl
    | some j => by_cases hij : j = i <;> simp [hij]
  have hbalance : ∀ i, s.heap.count i = s.callers.count i +
      ((if s.keyboard = some i then 1 else 0) + if s.pointing = some i then 1 else 0) := by
    intro i
    rw [hinv.owns i, held, List.count_append, List.count_append, hcount, hcount]
  refine ⟨fun label henabled => ?_, hbalance, fun hfreed i => ?_, hinv.keyboardReports,
    hinv.pointingReports⟩
  · obtain ⟨t, ht, -⟩ := hinv.effect henabled
    exact ⟨t, (if_pos henabled).trans ht⟩
  · obtain ⟨hkeyboard, hpointing⟩ := hinv.freed hfreed
    rw [hbalance i, hkeyboard, hpointing]
    rfl

/-- A caller posts the report `0x1 0x2` as a descriptor of its own. The LED state is set, once with
and once without memory for its report, and the user client is freed. -/
def postAndFree : List UserClientLabel :=
  [.externalMethod 1 { scalarInput := [1, 2, 3] } {}, .createMemory [1, 2],
    .externalMethod 3 { structureInputDescriptor := some 1 } {}, .releaseMemory 1,
    .setReport { report := some [5, 2] },
    .setReport { report := some [5, 1], create := { map := .noMemory } }, .free]

theorem references_balanced_freed :
    ∃ s, Transition.run step {} postAndFree = some s ∧
      s.keyboardDevice.accepted = [[1, 2], [6, 2]] ∧
      (∀ i, s.heap.count i = s.callers.count i) ∧
      ∀ r ∈ s.keyboardDevice.accepted, KeyboardReport postAndFree s.heap r := by
  obtain ⟨s, hrun, haccepted, hfreed⟩ : ∃ s, Transition.run step {} postAndFree = some s ∧
      s.keyboardDevice.accepted = [[1, 2], [6, 2]] ∧ s.freed = true := ⟨_, rfl, rfl, rfl⟩
  obtain ⟨-, -, hbalance, hreports, -⟩ := references_balanced postAndFree hrun
  exact ⟨s, hrun, haccepted, hbalance hfreed, hreports⟩

/-- `UserClient`, which the models of the daemon call, after the same steps. -/
def observed (labels : List UserClientLabel) : UserClient := labels.foldl UserClient.observe {}

/-- In every run up to `free` in which keyboards are asked for with three scalars, whatever else is
called and fails: the instance variables are those of `UserClient` after the same calls, there are
the same devices, and the keyboard has the identity that it has there. -/
theorem user_client_refined (labels : List UserClientLabel)
    (h : Transition.run step {} labels = some s) (hcomplete : ∀ label ∈ labels, label.Complete)
    (hfreed : s.freed = false) : s.Represents (observed labels) := by
  refine Transition.run_history
    (P := fun labels s => s.Inv labels ∧ ((∀ label ∈ labels, label.Complete) →
      s.freed = false → s.Represents (observed labels)))
    ⟨Inv.init, fun _ _ => ⟨rfl, rfl, rfl⟩⟩ ?_ h |>.2 hcomplete hfreed
  rintro labels s label t ⟨hinv, hrefines⟩ hstep
  obtain ⟨hnext, hobserve⟩ := hinv.step hstep
  refine ⟨hnext, fun hcomplete hfreed => ?_⟩
  obtain ⟨hbefore, hrepresents⟩ := hobserve hfreed
  rw [observed, List.foldl_append]
  refine hrepresents _ (hrefines (fun l hl => ?_) hbefore) ?_
  · exact hcomplete l (List.mem_append_left _ hl)
  · exact hcomplete label (List.mem_append_right _ List.mem_cons_self)

/-- A keyboard is asked for twice: the first time what was created is of another class. -/
def createTwice : List UserClientLabel :=
  [.externalMethod 1 { scalarInput := [1, 2, 3] } { cast := false },
    .externalMethod 5 {} {}, .externalMethod 1 { scalarInput := [4, 5, 6] } {}]

theorem user_client_refined_twice :
    ∃ s, Transition.run step {} createTwice = some s ∧ s.keyboard = some 2 ∧
      s.Represents (observed createTwice) := by
  obtain ⟨s, hrun, hkeyboard, hfreed⟩ : ∃ s, Transition.run step {} createTwice = some s ∧
      s.keyboard = some 2 ∧ s.freed = false := ⟨_, rfl, rfl, rfl⟩
  refine ⟨s, hrun, hkeyboard, user_client_refined createTwice hrun ?_ hfreed⟩
  refine List.forall_mem_cons.mpr ⟨fun _ => rfl, List.forall_mem_cons.mpr ⟨?_, ?_⟩⟩
  · exact fun hmethod => absurd hmethod (by decide)
  · exact List.forall_mem_cons.mpr ⟨fun _ => rfl, fun _ hmem => absurd hmem List.not_mem_nil⟩

end UserClientObject

end VirtualHidDevice
