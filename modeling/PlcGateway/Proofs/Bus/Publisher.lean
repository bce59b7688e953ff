import PlcGateway.Device.List
import PlcGateway.Gateway
import PlcGateway.Proofs.Device.Address
import PlcGateway.Proofs.Text.Cut
import PlcGateway.Settings.Validation

/-!
# What is published

The bus takes the keys whose slashes are in order, and refuses all others. The address of a device
is letters, digits and plus signs, whatever list the device comes from, so behind the key prefix it
is one part more, and the slashes of the whole are in order just if those of the key prefix are
(`delimited_under_iff`). No rule for configurations is about the key prefix. So there are valid
configurations under which every message is refused (`valid_prefix_refused`), and the others, under
which each message puts its one payload, are known by their key prefix alone
(`published_by_prefix`).
-/

namespace PlcGateway.Bus

/-! ## Slashes -/

variable {part : List Char}

/-- Slashes in order: a key is not empty, it neither begins nor ends with a slash, and it holds no
two slashes in a row. -/
structure Delimited (key : List Char) : Prop where
  ne_nil : key ≠ []
  head : ∀ rest, key ≠ '/' :: rest
  last : ∀ front, key ≠ front ++ ['/']
  apart : ∀ front rest, key ≠ front ++ '/' :: '/' :: rest

/-- The slashes are in order just if there is something on either side of each. -/
theorem delimited_iff (key : List Char) :
    Delimited key ↔ ∀ part ∈ Text.fields '/' key, part ≠ [] := by
  constructor
  · rintro delimited part hmem rfl
    obtain ⟨before, after, hfields⟩ := List.append_of_mem hmem
    have hkey := Text.join_fields '/' key
    rw [hfields] at hkey
    cases before with
    | nil =>
      cases after with
      | nil => exact delimited.ne_nil hkey.symm
      | cons next after => exact delimited.head _ hkey.symm
    | cons first before =>
      rw [Text.join_append (List.cons_ne_nil first before) (List.cons_ne_nil [] after)] at hkey
      cases after with
      | nil => exact delimited.last _ hkey.symm
      | cons next after => exact delimited.apart _ _ hkey.symm
  · intro parts
    constructor
    · rintro rfl
      exact parts [] List.mem_cons_self rfl
    · rintro rest rfl
      refine parts [] ?_ rfl
      rw [Text.fields, if_pos rfl]
      exact List.mem_cons_self
    · rintro front rfl
      refine parts [] ?_ rfl
      rw [Text.fields_append]
      exact List.mem_append_right _ List.mem_cons_self
    · rintro front rest rfl
      refine parts [] ?_ rfl
      rw [Text.fields_append, Text.fields, if_pos rfl]
      exact List.mem_append_right _ List.mem_cons_self

instance : DecidablePred Delimited := fun key => decidable_of_iff _ (delimited_iff key).symm

/-- One more part behind a base changes nothing about its slashes. -/
theorem delimited_under_iff (nonempty : part ≠ []) (slash : '/' ∉ part) (base : List Char) :
    Delimited (base ++ '/' :: part) ↔ Delimited base := by
  rw [delimited_iff, delimited_iff, Text.fields_append, Text.fields_of_not_mem slash,
    List.forall_mem_append, List.forall_mem_singleton]
  exact and_iff_left nonempty

namespace Publisher

/-! ## Messages of devices -/

theorem key_of_device (base : String) (device : Device) :
    key base device.address = base ++ "/" ++ device.address := by
  rw [key, if_neg]
  intro h
  rw [String.isEmpty_iff] at h
  exact device.address_ne_nil (by rw [h]; rfl)

theorem delimited_key_iff (base : String) (device : Device) :
    Delimited (base ++ "/" ++ device.address).toList ↔ Delimited base.toList := by
  have hkey : (base ++ "/" ++ device.address).toList =
      base.toList ++ '/' :: device.address.toList := by
    simp
  rw [hkey]
  exact delimited_under_iff device.address_ne_nil device.slash_not_mem_address base.toList

variable {accepts : String → Bool} {base : String}

theorem message?_of_delimited (rule : ∀ key, accepts key = true ↔ Delimited key.toList)
    (delimited : Delimited base.toList) (device : Device) (value : RegisterValue)
    (source : String) (format : PayloadFormat) :
    (⟨base, format, accepts⟩ : Publisher).message? ⟨device.address, value, source⟩ =
      some ⟨base ++ "/" ++ device.address,
        Message.payload ⟨device.address, value, source⟩ format⟩ := by
  have haccepts : accepts (base ++ "/" ++ device.address) = true :=
    (rule _).2 ((delimited_key_iff base device).2 delimited)
  rw [message?, key_of_device, put?, if_pos haccepts]

theorem message?_of_not_delimited (rule : ∀ key, accepts key = true ↔ Delimited key.toList)
    (faulty : ¬ Delimited base.toList) (device : Device) (value : RegisterValue)
    (source : String) (format : PayloadFormat) :
    (⟨base, format, accepts⟩ : Publisher).message? ⟨device.address, value, source⟩ = none := by
  have hrefuses : ¬ accepts (base ++ "/" ++ device.address) = true := fun haccepts =>
    faulty ((delimited_key_iff base device).1 ((rule _).1 haccepts))
  rw [message?, key_of_device, put?, if_neg hrefuses]

/-- On a bus that takes the keys with slashes in order and no others, the key prefix of a
configuration, which no rule is about, decides alone what is published: the messages of all devices,
whatever lists they are from, or none. If its slashes are in order, a message puts its one payload
under the key prefix, a slash and the address, and handling the message adds this entry and changes
nothing else. If they are not, the message is refused, and handling it changes nothing. -/
theorem published_by_prefix (rule : ∀ key, accepts key = true ↔ Delimited key.toList)
    (settings : Settings) (device : Device) (value : RegisterValue) (source : String)
    (format : PayloadFormat) :
    let base := settings.scan.keyPrefix
    let publisher : Publisher := ⟨base, format, accepts⟩
    let message : Message := ⟨device.address, value, source⟩
    let entry : Entry := ⟨base ++ "/" ++ device.address, message.payload format⟩
    (∀ other, { settings with scan := { settings.scan with keyPrefix := other } }.validate =
      settings.validate) ∧
    (Delimited base.toList → publisher.message? message = some entry ∧
      ∀ {ν : Type} (network : Network ν) (gateway : Gateway ν),
        gateway.handle network (.publish publisher) message =
          { gateway with puts := gateway.puts ++ [entry] }) ∧
    (¬ Delimited base.toList → publisher.message? message = none ∧
      ∀ {ν : Type} (network : Network ν) (gateway : Gateway ν),
        gateway.handle network (.publish publisher) message = gateway) := by
  intro base publisher message entry
  refine ⟨fun other => rfl, fun delimited => ?_, fun faulty => ?_⟩
  · have hmessage : publisher.message? message = some entry :=
      message?_of_delimited rule delimited device value source format
    refine ⟨hmessage, fun network gateway => ?_⟩
    rw [Gateway.handle, hmessage]
    rfl
  · have hmessage : publisher.message? message = none :=
      message?_of_not_delimited rule faulty device value source format
    refine ⟨hmessage, fun network gateway => ?_⟩
    rw [Gateway.handle, hmessage]
    simp

/-- Under the key prefix that is used where none is configured, the values of a listed device are
put. -/
theorem published_by_default :
    let accepts : String → Bool := fun key => Delimited key.toList
    let settings : Settings := { scan := { plcs := [{ name := "Line1", host := "plc" }] } }
    let device : Device := ⟨.d, "100", 100, .unsigned, 1, rfl, rfl, by decide⟩
    let message : Message := ⟨device.address, .unsigned 42, "Line1"⟩
    (∀ key, accepts key = true ↔ Delimited key.toList) ∧
    settings.validate = .ok () ∧ device ∈ Device.parseList "D,100,1" ∧
    (⟨settings.scan.keyPrefix, .json, accepts⟩ : Publisher).message? message =
      some ⟨"mcsight/slmp/D100", message.payload .json⟩ := by
  intro accepts settings device message
  have rule : ∀ key, accepts key = true ↔ Delimited key.toList := fun _ => decide_eq_true_iff
  have listed : device ∈ Device.parseList "D,100,1" := by decide +kernel
  have delimited : Delimited settings.scan.keyPrefix.toList := by decide +kernel
  obtain ⟨-, hput, -⟩ := published_by_prefix rule settings device (.unsigned 42) "Line1" .json
  refine ⟨rule, rfl, listed, (hput delimited).1.trans ?_⟩
  rfl

/-- A slash at the end of the key prefix is no fault of a configuration, but the bus takes no key
with two slashes in a row, and no value of a listed device is put. -/
theorem valid_prefix_refused :
    let accepts : String → Bool := fun key => Delimited key.toList
    let settings : Settings :=
      { scan := { keyPrefix := "plant/", plcs := [{ name := "Line1", host := "plc" }] } }
    let device : Device := ⟨.d, "100", 100, .unsigned, 1, rfl, rfl, by decide⟩
    let message : Message := ⟨device.address, .unsigned 42, "Line1"⟩
    (∀ key, accepts key = true ↔ Delimited key.toList) ∧
    settings.validate = .ok () ∧ device ∈ Device.parseList "D,100,1" ∧
    key settings.scan.keyPrefix message.address = "plant//D100" ∧
    (⟨settings.scan.keyPrefix, settings.serialization, accepts⟩ : Publisher).message? message =
      none := by
  intro accepts settings device message
  have rule : ∀ key, accepts key = true ↔ Delimited key.toList := fun _ => decide_eq_true_iff
  have listed : device ∈ Device.parseList "D,100,1" := by decide +kernel
  have hkey : key settings.scan.keyPrefix message.address = "plant//D100" := by decide +kernel
  have faulty : ¬ Delimited "plant//D100".toList := fun delimited =>
    delimited.apart "plant".toList "D100".toList (by decide +kernel)
  have hrefuses : ¬ accepts "plant//D100" = true := fun haccepts => faulty ((rule _).1 haccepts)
  refine ⟨rule, rfl, listed, hkey, ?_⟩
  rw [message?, hkey, put?, if_neg hrefuses]

end Publisher

end PlcGateway.Bus
