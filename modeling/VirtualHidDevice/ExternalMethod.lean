import VirtualHidDevice.RefCount
import VirtualHidDevice.Led
import VirtualHidDevice.UserClient

/-!
# The objects of the driver's user client

`org_pqrs_Karabiner_DriverKit_VirtualHIDDeviceUserClient` with all its external methods and the
references that it and its devices hold: to the devices, and to memory descriptors while a report
is posted. An object that is used or released without a reference is a fault, `none`.

* `createWithBytesIn`, `createIOMemoryDescriptor`, `postMemory`, `resetLoop`, `setReportIn` — the
  functions that create, retain and release descriptors.
* `UserClientObject.externalMethod` — `ExternalMethod`, for every selector and all arguments.
* `UserClientObject.step` — what callers, the host and the system do.
* `UserClientObject.Represents` — `UserClient`, which the models of the daemon call, seen in it.
-/

namespace VirtualHidDevice

open RefCount

/-! ## Memory descriptors -/

/-- `kIOReturnError` -/
def IOReturn.error : IOReturn := .other 0xe00002bc

/-- An object of the driver. -/
inductive DriverObject where
  /-- a memory descriptor -/
  | memory (bytes : Bytes)
  /-- a `VirtualHIDKeyboard`, with the identity that it has read from its provider -/
  | keyboard (identity : KeyboardIdentity)
  /-- a `VirtualHIDPointing` -/
  | pointing
  /-- a service of another class -/
  | service
deriving DecidableEq, Repr

/-- A result, what was stored in `memory`, and the objects. -/
abbrev Created := (IOReturn × Option ℕ) × Heap DriverObject

/-- `IOBufferMemoryDescriptorUtility::createWithBytes`; `bytes` is none for a null pointer. Nobody
looks at the descriptor before the bytes are copied, so it has them from the beginning. -/
def createWithBytesIn (answers : CreateAnswers) (bytes : Option Bytes) (h : Heap DriverObject) :
    Option Created :=
  match bytes with
  | none => some ((.badArgument, none), h)
  | some bytes =>
    if answers.create ≠ .success then some ((answers.create, none), h)
    else
      let (m, h) := h.create (.memory bytes)
      if answers.map ≠ .success then (h.release m).map fun h => ((answers.map, none), h)
      else if bytes.length ≠ answers.len bytes.length then
        (h.release m).map fun h => ((.noMemory, none), h)
      else some ((.success, some m), h)

/-- `OSSafeReleaseNULL`. -/
def safeRelease (object : Option ℕ) (h : Heap DriverObject) : Option (Heap DriverObject) :=
  match object with
  | none => some h
  | some i => h.release i

/-- The bytes of a descriptor, none for a null pointer. -/
def readMemory (memory : Option ℕ) (h : Heap DriverObject) : Option (Option Bytes) :=
  match memory with
  | none => some none
  | some m => match h.get m with
    | some (.memory bytes) => some (some bytes)
    | _ => none

/-- `postReport(memory); OSSafeReleaseNULL(memory);`, for either device. -/
def postMemory (answers : PostAnswers) (memory : Option ℕ) (d : HidDevice)
    (h : Heap DriverObject) : Option ((IOReturn × HidDevice) × Heap DriverObject) :=
  (readMemory memory h).bind fun report =>
    (safeRelease memory h).map fun h => (d.postReport answers report, h)

/-- The loop of `reset` over its reports. -/
def resetLoop : List (Bytes × ResetAnswers) → HidDevice → Heap DriverObject →
    Option ((IOReturn × HidDevice) × Heap DriverObject)
  | [], d, h => some ((.success, d), h)
  | (bytes, answers) :: rest, d, h =>
    (createWithBytesIn answers.create (some bytes) h).bind fun ((kr, memory), h) =>
      if kr ≠ .success then some ((kr, d), h)
      else (postMemory answers.post memory d h).bind fun (posted, h) => resetLoop rest posted.2 h

/-- `VirtualHIDKeyboard::setReport`. -/
def setReportIn (call : SetReportCall) (k : VirtualHidKeyboard) (h : Heap DriverObject) :
    Option ((IOReturn × VirtualHidKeyboard) × Heap DriverObject) :=
  match call.report with
  | none => some ((.badArgument, k), h)
  | some bytes =>
    if call.map ≠ .success then some ((call.map, k), h)
    else match bytes with
    | reportId :: state :: _ =>
      if reportId ≠ 5 then some ((.unsupported, k), h)
      else if k.lastLedState = state then some ((.success, k), h)
      else
        let k := { k with lastLedState := state }
        (createWithBytesIn call.create (some [6, state]) h).bind fun ((kr, memory), h) =>
          if kr ≠ .success then some ((kr, k), h)
          else (postMemory call.post memory k.toHidDevice h).map fun (posted, h) =>
            ((.success, { k with toHidDevice := posted.2 }), h)
    -- `len < 2`
    | _ => some ((.badArgument, k), h)

/-! ## External methods -/

/-- The methods in the order of their underlying values. -/
def UserClientMethod.all : List UserClientMethod :=
  [.driverVersion, .virtualHidKeyboardInitialize, .virtualHidKeyboardReady,
    .virtualHidKeyboardPostReport, .virtualHidKeyboardReset, .virtualHidPointingInitialize,
    .virtualHidPointingReady, .virtualHidPointingPostReport, .virtualHidPointingReset]

/-- `user_client_method(selector)`: the enumeration has 32 bits. None for `default`. -/
def UserClientMethod.ofSelector (selector : UInt64) : Option UserClientMethod :=
  UserClientMethod.all[selector.toUInt32.toNat]?

/-- `IOUserClientMethodArguments`. -/
structure MethodArguments where
  /-- `scalarInput`, with `scalarInputCount` values -/
  scalarInput : List UInt64 := []
  /-- `structureInput`, and what its `getBytesNoCopy()` returns -/
  structureInput : Option (Option Bytes) := none
  /-- `structureInputDescriptor` -/
  structureInputDescriptor : Option ℕ := none
  /-- `scalarOutputCount`, none if `scalarOutput` is null -/
  scalarOutputCount : Option ℕ := none
deriving DecidableEq, Repr

/-- What the system answers during a call. -/
structure MethodAnswers where
  /-- `IOService::Create` -/
  create : IOReturn := .success
  /-- the service that was created is of the class that is asked for -/
  cast : Bool := true
  /-- `getReady()` of a device -/
  ready : Bool := true
  /-- the answers to `createWithBytes` -/
  memory : CreateAnswers := {}
  /-- the answers to `postReport` -/
  post : PostAnswers := {}
  /-- the answers to the rounds of the loop of `reset` -/
  reset : ℕ → ResetAnswers := fun _ => {}

/-- The user client, its devices, and all objects. -/
structure UserClientObject where
  /-- the objects -/
  heap : Heap DriverObject := {}
  /-- `ivars->keyboardVendorId`, `ivars->keyboardProductId`, `ivars->keyboardCountryCode` -/
  identity : KeyboardIdentity := {}
  /-- `ivars->keyboard` -/
  keyboard : Option ℕ := none
  /-- `ivars->pointing` -/
  pointing : Option ℕ := none
  /-- the instance variables of the keyboard, and what the host knows of it -/
  keyboardDevice : VirtualHidKeyboard := {}
  /-- what the host knows of the pointing device -/
  pointingDevice : HidDevice := {}
  /-- the references to descriptors that callers hold -/
  callers : List ℕ := []
  /-- `free()` was called -/
  freed : Bool := false

/-- What a method returns. -/
structure MethodResult where
  /-- the returned value -/
  kr : IOReturn
  /-- `scalarOutput[0]`, if it is written -/
  output : Option UInt64 := none
  /-- the user client -/
  client : UserClientObject

/-- `createIOMemoryDescriptor(arguments, &memory)`. -/
def createIOMemoryDescriptor (arguments : MethodArguments) (answers : CreateAnswers)
    (h : Heap DriverObject) : Option Created :=
  match arguments.structureInput with
  | some bytes => createWithBytesIn answers bytes h
  | none => match arguments.structureInputDescriptor with
    | some memory => (h.retain memory).map fun h => ((.success, some memory), h)
    | none => some ((.success, none), h)

namespace UserClientObject

/-- A method of a device; `none` if there are no references to it. -/
def useDevice {α : Type} (device : Option ℕ) (s : UserClientObject) (missing : α)
    (method : Option α) : Option α :=
  match device with
  | none => some missing
  | some i => (s.heap.get i).bind fun _ => method

/-- `virtual_hid_keyboard_ready` and `virtual_hid_pointing_ready`. -/
def deviceReady (device : Option ℕ) (arguments : MethodArguments) (answers : MethodAnswers)
    (s : UserClientObject) : Option MethodResult :=
  match arguments.scalarOutputCount with
  | some (_ + 1) => s.useDevice device { kr := .success, output := some 0, client := s }
    (some { kr := .success, output := some answers.ready.toUInt64, client := s })
  | _ => some { kr := .error, client := s }

/-- `driver_version`. -/
def driverVersion (arguments : MethodArguments) (s : UserClientObject) : MethodResult :=
  match arguments.scalarOutputCount with
  | some (_ + 1) => { kr := .success, output := some embeddedDriverVersion, client := s }
  | _ => { kr := .error, client := s }

/-- The three identity variables after `virtual_hid_keyboard_initialize` has written them. -/
def requestedIdentity (arguments : MethodArguments) (s : UserClientObject) : KeyboardIdentity :=
  match arguments.scalarInput with
  | vendorId :: productId :: countryCode :: _ =>
    ⟨vendorId.toUInt32, productId.toUInt32, countryCode.toUInt32⟩
  | _ => s.identity

/-- `virtual_hid_keyboard_initialize`. -/
def keyboardInitialize (arguments : MethodArguments) (answers : MethodAnswers)
    (s : UserClientObject) : Option MethodResult :=
  if s.keyboard.isSome then some { kr := .success, client := s }
  else
    let s := { s with identity := s.requestedIdentity arguments }
    if answers.create ≠ .success then some { kr := answers.create, client := s }
    else
      let (client, heap) :=
        s.heap.create (if answers.cast then .keyboard s.identity else .service)
      if answers.cast then
        some { kr := .success
               client := { s with heap, keyboard := some client, keyboardDevice := {} } }
      else (heap.release client).map fun heap => { kr := .error, client := { s with heap } }

/-- `virtual_hid_pointing_initialize`. -/
def pointingInitialize (answers : MethodAnswers) (s : UserClientObject) : Option MethodResult :=
  if s.pointing.isSome then some { kr := .success, client := s }
  else if answers.create ≠ .success then some { kr := answers.create, client := s }
  else
    let (client, heap) := s.heap.create (if answers.cast then .pointing else .service)
    if answers.cast then
      some { kr := .success
             client := { s with heap, pointing := some client, pointingDevice := {} } }
    else (heap.release client).map fun heap => { kr := .error, client := { s with heap } }

/-- The method that posts a report, for a device that is there. -/
def postReportTo (arguments : MethodArguments) (answers : MethodAnswers) (d : HidDevice)
    (h : Heap DriverObject) : Option ((IOReturn × HidDevice) × Heap DriverObject) :=
  (createIOMemoryDescriptor arguments answers.memory h).bind fun ((kr, memory), h) =>
    if kr ≠ .success then some ((kr, d), h) else postMemory answers.post memory d h

/-- The keyboard after a method. -/
def setKeyboardDevice (s : UserClientObject)
    (result : (IOReturn × HidDevice) × Heap DriverObject) : MethodResult where
  kr := result.1.1
  client := { s with
    heap := result.2
    keyboardDevice := { s.keyboardDevice with toHidDevice := result.1.2 } }

/-- The pointing device after a method. -/
def setPointingDevice (s : UserClientObject)
    (result : (IOReturn × HidDevice) × Heap DriverObject) : MethodResult where
  kr := result.1.1
  client := { s with heap := result.2, pointingDevice := result.1.2 }

/-- `ExternalMethod`. -/
def externalMethod (selector : UInt64) (arguments : MethodArguments) (answers : MethodAnswers)
    (s : UserClientObject) : Option MethodResult :=
  match UserClientMethod.ofSelector selector with
  | some .driverVersion => some (s.driverVersion arguments)
  | some .virtualHidKeyboardInitialize => s.keyboardInitialize arguments answers
  | some .virtualHidKeyboardReady => s.deviceReady s.keyboard arguments answers
  | some .virtualHidKeyboardPostReport =>
    s.useDevice s.keyboard { kr := .error, client := s }
      ((postReportTo arguments answers s.keyboardDevice.toHidDevice s.heap).map
        s.setKeyboardDevice)
  | some .virtualHidKeyboardReset =>
    s.useDevice s.keyboard { kr := .error, client := s }
      ((resetLoop (resetSteps keyboardResetInputs answers.reset) s.keyboardDevice.toHidDevice
        s.heap).map s.setKeyboardDevice)
  | some .virtualHidPointingInitialize => s.pointingInitialize answers
  | some .virtualHidPointingReady => s.deviceReady s.pointing arguments answers
  | some .virtualHidPointingPostReport =>
    s.useDevice s.pointing { kr := .error, client := s }
      ((postReportTo arguments answers s.pointingDevice s.heap).map s.setPointingDevice)
  | some .virtualHidPointingReset =>
    s.useDevice s.pointing { kr := .error, client := s }
      ((resetLoop (resetSteps pointingResetInputs answers.reset) s.pointingDevice s.heap).map
        s.setPointingDevice)
  | none => some { kr := .badArgument, client := s }

/-- `free()`. -/
def free (s : UserClientObject) : Option UserClientObject :=
  (safeRelease s.keyboard s.heap).bind fun heap =>
    (safeRelease s.pointing heap).map fun heap =>
      { s with heap, keyboard := none, pointing := none, freed := true }

end UserClientObject

/-! ## Steps -/

/-- What happens next. -/
inductive UserClientLabel where
  /-- a caller creates a memory descriptor -/
  | createMemory (bytes : Bytes)
  /-- a caller releases a memory descriptor -/
  | releaseMemory (memory : ℕ)
  /-- `ExternalMethod(selector, arguments, ...)` -/
  | externalMethod (selector : UInt64) (arguments : MethodArguments) (answers : MethodAnswers)
  /-- the host calls `setReport` of the keyboard -/
  | setReport (call : SetReportCall)
  /-- `free()` -/
  | free

namespace UserClientObject

/-- What callers and the system keep to: a caller uses descriptors that it holds, and the user
client and its keyboard are called only while they are there. -/
def Enabled (s : UserClientObject) : UserClientLabel → Prop
  | .createMemory _ => True
  | .releaseMemory memory => memory ∈ s.callers
  | .externalMethod _ arguments _ =>
    s.freed = false ∧ ∀ memory ∈ arguments.structureInputDescriptor, memory ∈ s.callers
  | .setReport _ => s.keyboard.isSome
  | .free => s.freed = false

instance (s : UserClientObject) : (label : UserClientLabel) → Decidable (s.Enabled label)
  | .createMemory _ => inferInstanceAs (Decidable True)
  | .releaseMemory memory => inferInstanceAs (Decidable (memory ∈ s.callers))
  | .externalMethod _ arguments _ => inferInstanceAs (Decidable (s.freed = false ∧
    ∀ memory ∈ arguments.structureInputDescriptor, memory ∈ s.callers))
  | .setReport _ => inferInstanceAs (Decidable (s.keyboard.isSome = true))
  | .free => inferInstanceAs (Decidable (s.freed = false))

/-- What a step does; `none` if it faults. -/
def effect (s : UserClientObject) : UserClientLabel → Option UserClientObject
  | .createMemory bytes =>
    some { s with
      heap := (s.heap.create (.memory bytes)).2
      callers := (s.heap.create (.memory bytes)).1 :: s.callers }
  | .releaseMemory memory => (s.heap.release memory).map fun heap =>
    { s with heap, callers := s.callers.erase memory }
  | .externalMethod selector arguments answers =>
    (s.externalMethod selector arguments answers).map MethodResult.client
  | .setReport call => (setReportIn call s.keyboardDevice s.heap).map fun result =>
    { s with keyboardDevice := result.1.2, heap := result.2 }
  | .free => s.free

/-- One step. -/
def step (s : UserClientObject) (label : UserClientLabel) : Option UserClientObject :=
  if s.Enabled label then s.effect label else none

end UserClientObject

/-! ## The calls of the daemon -/

/-- The three scalars of `virtual_hid_keyboard_initialize`. -/
def MethodArguments.parameters (arguments : MethodArguments) : Option Parameters :=
  match arguments.scalarInput with
  | vendorId :: productId :: countryCode :: _ => some ⟨vendorId, productId, countryCode⟩
  | _ => none

/-- How the creation of a device ends. -/
def MethodAnswers.createAnswer (answers : MethodAnswers) : CreateAnswer :=
  if answers.create = .success ∧ answers.cast = true then .created else .createFailed

/-- The two calls that create a device. -/
def UserClientLabel.driverCall : UserClientLabel → Option (CreateAnswer × DriverCall)
  | externalMethod selector arguments answers => match UserClientMethod.ofSelector selector with
    | some .virtualHidKeyboardInitialize =>
      arguments.parameters.map fun input => (answers.createAnswer, .keyboardInitialize input)
    | some .virtualHidPointingInitialize => some (answers.createAnswer, .pointingInitialize)
    | _ => none
  | _ => none

/-- A keyboard is asked for with three scalars, as the daemon does it. -/
def UserClientLabel.Complete : UserClientLabel → Prop
  | externalMethod selector arguments _ =>
    UserClientMethod.ofSelector selector = some .virtualHidKeyboardInitialize →
      arguments.parameters.isSome = true
  | _ => True

/-- A step, as far as it concerns `UserClient`. -/
def UserClient.observe (u : UserClient) (label : UserClientLabel) : UserClient :=
  match label.driverCall with
  | none => u
  | some (answer, call) => u.externalMethod answer call

theorem UserClient.observe_externalMethod (u : UserClient) (selector : UInt64)
    (arguments : MethodArguments) (answers : MethodAnswers) :
    u.observe (.externalMethod selector arguments answers) =
      match UserClientMethod.ofSelector selector with
      | some .virtualHidKeyboardInitialize => match arguments.parameters with
        | some input => u.keyboardInitialize input answers.createAnswer
        | none => u
      | some .virtualHidPointingInitialize => u.pointingInitialize answers.createAnswer
      | _ => u := by
  rw [UserClient.observe, UserClientLabel.driverCall]
  cases UserClientMethod.ofSelector selector with
  | none => rfl
  | some method =>
    cases method with
    | virtualHidKeyboardInitialize => cases arguments.parameters <;> rfl
    | _ => rfl

/-- The instance variables are those of `UserClient`, and the devices have their identities. -/
structure UserClientObject.Represents (s : UserClientObject) (u : UserClient) : Prop where
  /-- the three identity variables -/
  identity : u.identity = s.identity
  /-- `keyboard` -/
  keyboard : s.keyboard.bind s.heap.content = u.keyboard.map fun d => .keyboard d.identity
  /-- `pointing` -/
  pointing : s.pointing.bind s.heap.content = u.pointing.map fun _ => .pointing

end VirtualHidDevice
