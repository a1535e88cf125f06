import VirtualHidDevice.IoServiceClient

/-!
# The driver's user client

`org_pqrs_Karabiner_DriverKit_VirtualHIDDeviceUserClient`: what the driver
keeps for one connection, and the external methods that create its devices.
The other methods leave the instance variables alone.
-/

namespace VirtualHidDevice

/-- The identity of a keyboard as the driver holds it, in 32 bits each. -/
@[ext] structure KeyboardIdentity where
  /-- `keyboardVendorId` -/
  vendorId : UInt32 := 0
  /-- `keyboardProductId` -/
  productId : UInt32 := 0
  /-- `keyboardCountryCode` -/
  countryCode : UInt32 := 0
deriving DecidableEq, Repr

/-- `static_cast<uint32_t>` of the three scalars. -/
def KeyboardIdentity.ofInput (input : Parameters) : KeyboardIdentity :=
  ⟨input.vendorId.toUInt32, input.productId.toUInt32, input.countryCode.toUInt32⟩

/-- A device that `Create` has made: a number that tells devices apart, and the
identity that the user client held at that time. -/
structure Device where
  /-- how many devices the user client had created before -/
  serial : ℕ
  /-- the identity the device read from its provider -/
  identity : KeyboardIdentity
deriving DecidableEq, Repr

/-- The instance variables of the user client, zeroed by `IONewZero`. -/
structure UserClient where
  /-- the three identity variables -/
  identity : KeyboardIdentity := {}
  /-- `keyboard` -/
  keyboard : Option Device := none
  /-- `pointing` -/
  pointing : Option Device := none
  /-- how many devices were created so far -/
  created : ℕ := 0
deriving DecidableEq, Repr

namespace UserClient

/-- `virtual_hid_keyboard_initialize`: the identity is written only while there
is no keyboard, and before the keyboard is created. -/
def keyboardInitialize (u : UserClient) (input : Parameters) (answer : CreateAnswer) :
    UserClient :=
  match answer with
  | .callFailed => u
  | .createFailed =>
    if u.keyboard.isNone then { u with identity := .ofInput input } else u
  | .created =>
    if u.keyboard.isNone then
      { u with
        identity := .ofInput input
        keyboard := some ⟨u.created, .ofInput input⟩
        created := u.created + 1 }
    else u

/-- `virtual_hid_pointing_initialize`. -/
def pointingInitialize (u : UserClient) (answer : CreateAnswer) : UserClient :=
  match answer with
  | .created =>
    if u.pointing.isNone then
      { u with pointing := some ⟨u.created, u.identity⟩, created := u.created + 1 }
    else u
  | _ => u

/-- `ExternalMethod`, as far as it changes the instance variables. -/
def externalMethod (u : UserClient) (answer : CreateAnswer) : DriverCall → UserClient
  | .keyboardInitialize input => u.keyboardInitialize input answer
  | .pointingInitialize => u.pointingInitialize answer
  | _ => u

/-- Once there is a keyboard, no method changes it or the identity. -/
theorem externalMethod_keyboard {u : UserClient} {d : Device} (h : u.keyboard = some d)
    (answer : CreateAnswer) (call : DriverCall) :
    (u.externalMethod answer call).keyboard = some d ∧
      (u.externalMethod answer call).identity = u.identity := by
  have hnone : u.keyboard.isNone = false := by simp [h]
  cases call with
  | keyboardInitialize input =>
    cases answer <;> simp [externalMethod, keyboardInitialize, h]
  | pointingInitialize =>
    cases answer with
    | created => by_cases hp : u.pointing.isNone <;>
        simp [externalMethod, pointingInitialize, hp, h]
    | _ => exact ⟨h, rfl⟩
  | _ => exact ⟨h, rfl⟩

/-- A keyboard has the identity of its user client, and that is the one the
calls so far have asked for. -/
def Identified (u : UserClient) (parameters : Parameters) : Prop :=
  ∀ d, u.keyboard = some d →
    u.identity = .ofInput parameters ∧ d.identity = .ofInput parameters

/-- Calls that ask for one identity only keep the keyboard identified by it. -/
theorem Identified.externalMethod {u : UserClient} {parameters : Parameters}
    (h : u.Identified parameters) {answer : CreateAnswer} {call : DriverCall}
    (hcall : ∀ input, call = .keyboardInitialize input → input = parameters) :
    (u.externalMethod answer call).Identified parameters := by
  intro d hd
  rcases hk : u.keyboard with _ | e
  · -- the keyboard is new, so this call has created it
    cases call with
    | keyboardInitialize input =>
      obtain rfl := hcall input rfl
      cases answer with
      | created =>
        simp only [UserClient.externalMethod, keyboardInitialize, hk, Option.isNone_none,
          if_pos] at hd ⊢
        obtain rfl := Option.some.inj hd
        exact ⟨trivial, rfl⟩
      | _ => simp [UserClient.externalMethod, keyboardInitialize, hk] at hd
    | pointingInitialize =>
      cases answer with
      | created => by_cases hp : u.pointing.isNone <;>
          simp [UserClient.externalMethod, pointingInitialize, hp, hk] at hd
      | _ => simp [UserClient.externalMethod, pointingInitialize, hk] at hd
    | _ => simp [UserClient.externalMethod, hk] at hd
  · obtain ⟨hkeep, hid⟩ := externalMethod_keyboard hk answer call
    rw [hkeep] at hd
    obtain rfl := Option.some.inj hd
    rw [hid]
    exact h e hk

end UserClient

end VirtualHidDevice
