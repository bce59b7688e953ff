import PlcGateway.Proofs.Json5.Field
import PlcGateway.Proofs.Json5.Integer
import PlcGateway.Proofs.Settings.Validation
import PlcGateway.Proofs.Text.Utf8
import PlcGateway.Settings.File

/-!
# Numbers in a configuration file

A number that is written as an integer is loaded as another one if it is out of the range of its
field, and also if it is in range and no double holds it. `Settings.load_integer` says for every
number of every configuration that is accepted what is loaded, and when this is what was written.
The rules of a configuration look at what is loaded, so they find a frame limit that is too great
and a port below one, but no port that is too great (`greater_port_loaded`).
-/

namespace PlcGateway

open Json5 (HasField)
open Ieee (binary64)

/-! ## The numbers of a configuration -/

/-- The numbers among the scan settings. They have 64 bits. -/
inductive ScanNumber where
  | workers
  | readTimeoutMs
  | scanIntervalMs

namespace ScanNumber

/-- The name under which a number is written. -/
def name : ScanNumber → String
  | workers => "workers"
  | readTimeoutMs => "read_timeout_ms"
  | scanIntervalMs => "scan_interval_ms"

/-- The number that is loaded. -/
def value (scan : ScanSettings) : ScanNumber → UInt64
  | workers => scan.workers
  | readTimeoutMs => scan.readTimeoutMs
  | scanIntervalMs => scan.scanIntervalMs

end ScanNumber

/-- The numbers among the settings of a PLC. -/
inductive PlcNumber where
  | port
  | maxRegistersPerFrame
  | connectTimeoutMs
  | ioTimeoutMs

namespace PlcNumber

/-- The name under which a number is written. -/
def name : PlcNumber → String
  | port => "port"
  | maxRegistersPerFrame => "max_registers_per_frame"
  | connectTimeoutMs => "connect_timeout_ms"
  | ioTimeoutMs => "io_timeout_ms"

/-- The greatest number that the field holds. -/
def limit : PlcNumber → ℕ
  | port => 2 ^ 16 - 1
  | maxRegistersPerFrame => 2 ^ 16 - 1
  | connectTimeoutMs => 2 ^ 64 - 1
  | ioTimeoutMs => 2 ^ 64 - 1

/-- The number that is loaded, if there is one. -/
def value? (plc : PlcSettings) : PlcNumber → Option ℕ
  | port => some plc.port.toNat
  | maxRegistersPerFrame => plc.maxRegistersPerFrame.map UInt16.toNat
  | connectTimeoutMs => some plc.connectTimeoutMs.toNat
  | ioTimeoutMs => some plc.ioTimeoutMs.toNat

end PlcNumber

/-- A number of a configuration; that of a PLC is found by the place of the PLC. -/
inductive NumberSetting where
  | scan (field : ScanNumber)
  | plc (place : ℕ) (field : PlcNumber)

namespace NumberSetting

/-- The greatest number that the setting holds. -/
def limit : NumberSetting → ℕ
  | scan _ => 2 ^ 64 - 1
  | plc _ field => field.limit

/-- The number that is loaded, if there is one. -/
def value? (settings : Settings) : NumberSetting → Option ℕ
  | scan field => some (field.value settings.scan).toNat
  | plc place field => settings.scan.plcs[place]?.bind field.value?

/-- A rule of a configuration refuses the setting where it is zero. -/
def IsPositive : NumberSetting → Prop
  | scan .workers => True
  | scan .readTimeoutMs => True
  | scan .scanIntervalMs => False
  | plc _ .port => True
  | plc _ .maxRegistersPerFrame => True
  | plc _ .connectTimeoutMs => False
  | plc _ .ioTimeoutMs => False

/-- A configuration gives a number for the setting. -/
inductive IsWritten (tree : Json5) (n : Json5.Number) : NumberSetting → Prop where
  | scan {scan : Json5} {field : ScanNumber}
      (part : HasField Settings.fieldNames "slmp" scan tree)
      (given : HasField ScanSettings.fieldNames field.name (.number n) scan) :
      IsWritten tree n (.scan field)
  | plc {scan plc : Json5} {plcs : List Json5} {place : ℕ} {field : PlcNumber}
      (part : HasField Settings.fieldNames "slmp" scan tree)
      (list : HasField ScanSettings.fieldNames "plcs" (.array plcs) scan)
      (entry : plcs[place]? = some plc)
      (given : HasField PlcSettings.fieldNames field.name (.number n) plc) :
      IsWritten tree n (.plc place field)

end NumberSetting

/-! ## Reading one number -/

namespace Json5

variable {n : Number}

theorem of_word?_eq_some {w : UInt16} (h : word? (.number n) = some w) :
    n.unsigned? (2 ^ 16 - 1) = some w.toNat := by
  obtain ⟨v, hv, rfl⟩ := Option.map_eq_some_iff.1 h
  obtain ⟨x, -, rfl⟩ := Option.map_eq_some_iff.1 hv
  have hle := Ieee.Datum.clamp_le (UInt16.size - 1) x
  rw [UInt16.toNat_ofNat_of_lt' (Nat.lt_of_le_pred (by decide) hle)]
  exact hv

theorem of_quad?_eq_some {w : UInt64} (h : quad? (.number n) = some w) :
    n.unsigned? (2 ^ 64 - 1) = some w.toNat := by
  obtain ⟨v, hv, rfl⟩ := Option.map_eq_some_iff.1 h
  obtain ⟨x, -, rfl⟩ := Option.map_eq_some_iff.1 hv
  have hle := Ieee.Datum.clamp_le (UInt64.size - 1) x
  rw [UInt64.toNat_ofNat_of_lt' (Nat.lt_of_le_pred (by decide) hle)]
  exact hv

end Json5

variable {value : Json5} {n : Json5.Number}

theorem ScanNumber.of_ofJson5? {scan : ScanSettings} {field : ScanNumber}
    (h : ScanSettings.ofJson5? value = some scan)
    (given : HasField ScanSettings.fieldNames field.name (.number n) value) :
    n.unsigned? (2 ^ 64 - 1) = some (field.value scan).toNat := by
  apply Json5.of_quad?_eq_some
  unfold ScanSettings.ofJson5? at h
  simp only [Option.bind_eq_bind, Option.bind_eq_some_iff, Option.some.injEq] at h
  obtain ⟨fields, hfields, plcs, -, keyPrefix, -, mode, -, workers, hworkers, readTimeoutMs,
    hreadTimeoutMs, scanIntervalMs, hscanIntervalMs, failOnIncompleteScan, -, rfl⟩ := h
  have hlookup := given.lookup_of_fields? (by decide) (by cases field <;> decide) hfields
  have hread := fun default => (Json5.getD_of_lookup hlookup Json5.quad? default).symm
  cases field with
  | workers => exact (hread _).trans hworkers
  | readTimeoutMs => exact (hread _).trans hreadTimeoutMs
  | scanIntervalMs => exact (hread _).trans hscanIntervalMs

theorem PlcNumber.of_ofJson5? {plc : PlcSettings} {field : PlcNumber}
    (h : PlcSettings.ofJson5? value = some plc)
    (given : HasField PlcSettings.fieldNames field.name (.number n) value) :
    ∃ v, field.value? plc = some v ∧ n.unsigned? field.limit = some v := by
  obtain ⟨fields, hfields, h⟩ := Option.bind_eq_some_iff.1 h
  obtain ⟨name, -, h⟩ := Option.bind_eq_some_iff.1 h
  obtain ⟨host, -, h⟩ := Option.bind_eq_some_iff.1 h
  obtain ⟨port, hport, h⟩ := Option.bind_eq_some_iff.1 h
  obtain ⟨model, -, h⟩ := Option.bind_eq_some_iff.1 h
  obtain ⟨devicesBit, -, h⟩ := Option.bind_eq_some_iff.1 h
  obtain ⟨devicesWord, -, h⟩ := Option.bind_eq_some_iff.1 h
  obtain ⟨devicesLong, -, h⟩ := Option.bind_eq_some_iff.1 h
  obtain ⟨devicesAscii, -, h⟩ := Option.bind_eq_some_iff.1 h
  obtain ⟨writeMap, -, h⟩ := Option.bind_eq_some_iff.1 h
  obtain ⟨conditionalWrites, -, h⟩ := Option.bind_eq_some_iff.1 h
  obtain ⟨maxRegistersPerFrame, hmaxRegistersPerFrame, h⟩ := Option.bind_eq_some_iff.1 h
  obtain ⟨connectTimeoutMs, hconnectTimeoutMs, h⟩ := Option.bind_eq_some_iff.1 h
  obtain ⟨ioTimeoutMs, hioTimeoutMs, h⟩ := Option.bind_eq_some_iff.1 h
  obtain rfl := Option.some.inj h
  have hlookup := given.lookup_of_fields? (by decide) (by cases field <;> decide) hfields
  have hread {α : Type} (read : Json5 → Option α) (default : α) :=
    (Json5.getD_of_lookup hlookup read default).symm
  cases field with
  | port => exact ⟨_, rfl, Json5.of_word?_eq_some ((hread _ _).trans hport)⟩
  | maxRegistersPerFrame =>
    have hlimit := (hread (Json5.optional? Json5.word?) _).trans hmaxRegistersPerFrame
    obtain ⟨w, hw, rfl⟩ := Option.map_eq_some_iff.1 hlimit
    exact ⟨_, rfl, Json5.of_word?_eq_some hw⟩
  | connectTimeoutMs => exact ⟨_, rfl, Json5.of_quad?_eq_some ((hread _ _).trans hconnectTimeoutMs)⟩
  | ioTimeoutMs => exact ⟨_, rfl, Json5.of_quad?_eq_some ((hread _ _).trans hioTimeoutMs)⟩

/-! ## Reading a configuration -/

theorem Settings.scan_of_ofJson5? {settings : Settings} {tree scan : Json5}
    (h : Settings.ofJson5? tree = some settings)
    (part : HasField Settings.fieldNames "slmp" scan tree) :
    ScanSettings.ofJson5? scan = some settings.scan := by
  unfold Settings.ofJson5? at h
  simp only [Option.bind_eq_bind, Option.bind_eq_some_iff, Option.some.injEq] at h
  obtain ⟨fields, hfields, scanSettings, hscan, bus, -, serialization, -, logging, -, rfl⟩ := h
  have hlookup := part.lookup_of_fields? (by decide) (by decide) hfields
  exact (Json5.get?_of_lookup hlookup ScanSettings.ofJson5?).symm.trans hscan

theorem ScanSettings.exists_plc_of_ofJson5? {scan : ScanSettings} {plcs : List Json5}
    (h : ScanSettings.ofJson5? value = some scan)
    (list : HasField ScanSettings.fieldNames "plcs" (.array plcs) value) {place : ℕ} {entry : Json5}
    (hentry : plcs[place]? = some entry) :
    ∃ plc, scan.plcs[place]? = some plc ∧ PlcSettings.ofJson5? entry = some plc := by
  unfold ScanSettings.ofJson5? at h
  simp only [Option.bind_eq_bind, Option.bind_eq_some_iff, Option.some.injEq] at h
  obtain ⟨fields, hfields, all, hall, keyPrefix, -, mode, -, workers, -, readTimeoutMs, -,
    scanIntervalMs, -, failOnIncompleteScan, -, rfl⟩ := h
  have hlookup := list.lookup_of_fields? (by decide) (by decide) hfields
  have hread := Json5.get?_of_lookup hlookup (Json5.list? PlcSettings.ofJson5?)
  exact Json5.exists_of_list? (hread.symm.trans hall) hentry

/-- What is written for a setting is what is read for it. -/
theorem NumberSetting.IsWritten.exists_value? {settings : Settings} {tree : Json5}
    {setting : NumberSetting} (written : setting.IsWritten tree n)
    (h : Settings.ofJson5? tree = some settings) :
    ∃ v, setting.value? settings = some v ∧ n.unsigned? setting.limit = some v := by
  cases written with
  | scan part given =>
    have hscan := Settings.scan_of_ofJson5? h part
    exact ⟨_, rfl, ScanNumber.of_ofJson5? hscan given⟩
  | @plc scan entry plcs place field part list hentry given =>
    have hscan := Settings.scan_of_ofJson5? h part
    obtain ⟨plc, hplc, hread⟩ := ScanSettings.exists_plc_of_ofJson5? hscan list hentry
    obtain ⟨v, hv, hnumber⟩ := PlcNumber.of_ofJson5? hread given
    refine ⟨v, ?_, hnumber⟩
    show settings.scan.plcs[place]?.bind field.value? = some v
    rw [hplc, Option.bind_some, hv]

theorem NumberSetting.limit_eq (setting : NumberSetting) :
    setting.limit = 2 ^ 16 - 1 ∨ setting.limit = 2 ^ 64 - 1 := by
  cases setting with
  | scan field => exact .inr rfl
  | plc place field =>
    cases field with
    | port => exact .inl rfl
    | maxRegistersPerFrame => exact .inl rfl
    | connectTimeoutMs => exact .inr rfl
    | ioTimeoutMs => exact .inr rfl

/-! ## The rules -/

/-- A configuration that is accepted has a tree, is read from it, and is valid. -/
theorem Settings.of_load_eq_ok {path : String} {content : List UInt8} {settings : Settings}
    (accepted : load path (.bytes content) = .ok settings) :
    ∃ text tree, Text.ofUtf8? content = some text ∧ Json5.parse? text = some tree ∧
      ofJson5? tree = some settings ∧ settings.IsValid := by
  unfold load at accepted
  simp only at accepted
  split at accepted
  · cases accepted
  · next text htext =>
    split at accepted
    · cases accepted
    · next loaded hloaded =>
      split at accepted
      · cases accepted
      · next hvalid =>
        obtain rfl := Except.ok.inj accepted
        obtain ⟨tree, htree, hread⟩ := Option.bind_eq_some_iff.1 hloaded
        exact ⟨text, tree, htext, htree, hread, Settings.validate_eq_ok_iff.1 hvalid⟩

/-- A valid configuration has no zero where a rule refuses it. -/
theorem NumberSetting.IsPositive.pos {settings : Settings} {setting : NumberSetting} {v : ℕ}
    (positive : setting.IsPositive) (valid : settings.IsValid)
    (hv : setting.value? settings = some v) : 0 < v := by
  cases setting with
  | scan field =>
    obtain rfl := Option.some.inj hv
    cases field with
    | workers => exact valid.scan.workers
    | readTimeoutMs => exact valid.scan.readTimeout
    | scanIntervalMs => exact positive.elim
  | plc place field =>
    obtain ⟨plc, hplc, hv⟩ := Option.bind_eq_some_iff.1 hv
    have hplcValid := valid.scan.plc plc (List.mem_of_getElem? hplc)
    cases field with
    | port =>
      obtain rfl := Option.some.inj hv
      exact UInt16.pos_iff_ne_zero.2 hplcValid.port
    | maxRegistersPerFrame =>
      obtain ⟨limit, hlimit, rfl⟩ := Option.map_eq_some_iff.1 hv
      exact (hplcValid.frameLimit limit hlimit).1
    | connectTimeoutMs => exact positive.elim
    | ioTimeoutMs => exact positive.elim

/-- A valid configuration has no frame limit that is too great. -/
theorem Settings.IsValid.frameLimit_le {settings : Settings} (valid : settings.IsValid)
    {place v : ℕ} (hv : (NumberSetting.plc place .maxRegistersPerFrame).value? settings = some v) :
    v ≤ 960 := by
  obtain ⟨plc, hplc, hv⟩ := Option.bind_eq_some_iff.1 hv
  obtain ⟨limit, hlimit, rfl⟩ := Option.map_eq_some_iff.1 hv
  exact ((valid.scan.plc plc (List.mem_of_getElem? hplc)).frameLimit limit hlimit).2

/-- An integer that is loaded as a valid frame limit is loaded as it is. -/
theorem NumberSetting.natCast_eq_of_frameLimit {i : ℤ} {loaded : ℕ} (positive : 0 < i)
    (h : loaded = min (2 ^ 16 - 1) (binary64.roundNat i.toNat)) (high : loaded ≤ 960) :
    (loaded : ℤ) = i := by
  obtain ⟨k, rfl⟩ := Int.eq_ofNat_of_zero_le positive.le
  rw [Int.toNat_natCast] at h
  have hround : loaded = binary64.roundNat k := by omega
  have hhalf := binary64.lt_two_mul_roundNat (Int.natCast_pos.1 positive)
  have hsmall : k < 2 ^ (binary64.fractionBits + 1) :=
    lt_trans (show k < 2 * 961 by omega) (by decide)
  rw [hround, Ieee.Format.roundNat_of_lt hsmall]

/-- A configuration that is accepted has a tree, and each number in it that is written as an integer
is loaded as the double that is nearest, brought into the range of its setting. This is the integer
itself exactly if it is in range and has no more than 53 significant bits, or is the greatest of 64
bits. Where a rule refuses zero, the integer is positive, and a frame limit is always the integer
itself. -/
theorem Settings.load_integer {path : String} {content : List UInt8} {settings : Settings}
    (accepted : load path (.bytes content) = .ok settings) :
    ∃ text tree, Text.ofUtf8? content = some text ∧ Json5.parse? text = some tree ∧
      ∀ (setting : NumberSetting) (n : Json5.Number) (i : ℤ),
        setting.IsWritten tree n → n.integer? = some i →
        ∃ loaded : ℕ, setting.value? settings = some loaded ∧
          loaded = min setting.limit (binary64.roundNat i.toNat) ∧
          ((loaded : ℤ) = i ↔ 0 ≤ i ∧ i ≤ setting.limit ∧
            (2 ^ (i.toNat.log2 - 52) ∣ i.toNat ∨ i = 2 ^ 64 - 1)) ∧
          (setting.IsPositive → 0 < i) ∧
          ∀ place, setting = .plc place .maxRegistersPerFrame → (loaded : ℤ) = i := by
  obtain ⟨text, tree, htext, htree, hread, valid⟩ := of_load_eq_ok accepted
  refine ⟨text, tree, htext, htree, fun setting n i written integer => ?_⟩
  obtain ⟨loaded, hloaded, hnumber⟩ := written.exists_value? hread
  have hvalue := Json5.Number.unsigned?_eq integer hnumber
  have hpositive : setting.IsPositive → 0 < i := by
    intro positive
    have hpos := positive.pos valid hloaded
    by_contra hnonpos
    -- what is not positive is read as zero
    rw [Int.toNat_of_nonpos (not_lt.1 hnonpos)] at hvalue
    have hzero : loaded = 0 := hvalue.trans (Nat.min_zero _)
    omega
  refine ⟨loaded, hloaded, hvalue, ?_, hpositive, ?_⟩
  · rw [hvalue]
    exact Json5.Number.min_roundNat_eq_iff setting.limit_eq
  · rintro place rfl
    exact NumberSetting.natCast_eq_of_frameLimit (hpositive trivial) hvalue
      (valid.frameLimit_le hloaded)

/-- A number of workers that is one more than a double can tell from its neighbour is loaded as that
neighbour, though 64 bits hold it. -/
theorem Settings.load_integer_between_doubles :
    let text : List Char :=
    ['\x7b', '"', 's', 'l', 'm', 'p', '"', ':', '\x7b', '"', 'w', 'o', 'r', 'k', 'e', 'r', 's', '"',
     ':', '9', '0', '0', '7', '1', '9', '9', '2', '5', '4', '7', '4', '0', '9', '9', '3', ',', '"',
     'p', 'l', 'c', 's', '"', ':', '[', '\x7b', '"', 'n', 'a', 'm', 'e', '"', ':', '"', 'a', '"',
     ',', '"', 'h', 'o', 's', 't', '"', ':', '"', 'h', '"', '\x7d', ']', '\x7d', '\x7d']
    let plc : PlcSettings := { name := "a", host := "h" }
    let settings : Settings := { scan := { workers := 9007199254740992, plcs := [plc] } }
    let digits : List Char :=
    ['9', '0', '0', '7', '1', '9', '9', '2', '5', '4', '7', '4', '0', '9', '9', '3']
    let n : Json5.Number := ⟨.none, .decimal digits none none⟩
    load "gateway.json5" (.bytes (Text.utf8 text)) = .ok settings ∧
    n.integer? = some 9007199254740993 ∧
    (∃ tree, Json5.parse? (String.ofList text) = some tree ∧
      (NumberSetting.scan .workers).IsWritten tree n) ∧
    (NumberSetting.scan .workers).value? settings = some 9007199254740992 ∧
    ¬ 2 ^ (Nat.log2 9007199254740993 - 52) ∣ 9007199254740993 := by
  intro text plc settings digits n
  have accepted : load "gateway.json5" (.bytes (Text.utf8 text)) = .ok settings := by
    decide +kernel
  have integer : n.integer? = some 9007199254740993 := by decide +kernel
  have hparse : Json5.parse? (String.ofList text) = some (.object [(some "slmp", .object
      [(some "workers", .number n), (some "plcs", .array [.object
        [(some "name", .string (some "a")), (some "host", .string (some "h"))]])])]) := by
    rw [Json5.parse?, String.toList_ofList]
    rfl
  obtain ⟨text', tree, htext, htree, hall⟩ := load_integer accepted
  rw [Text.ofUtf8?_utf8] at htext
  obtain rfl := Option.some.inj htext
  have written : (NumberSetting.scan .workers).IsWritten tree n := by
    obtain rfl := Option.some.inj (hparse.symm.trans htree)
    exact .scan (.named (.head _)) (.named (.head _))
  obtain ⟨loaded, hloaded, -, hexact, -⟩ := hall _ n _ written integer
  refine ⟨accepted, integer, ⟨tree, htree, written⟩, rfl, fun hdvd => ?_⟩
  -- a double would have been kept
  obtain rfl : 9007199254740992 = loaded := Option.some.inj hloaded
  have hkept := hexact.2 ⟨by decide, by decide, .inl hdvd⟩
  exact absurd hkept (by decide)

/-- A port that is too great is accepted, and loaded as the greatest. -/
theorem Settings.greater_port_loaded :
    let text : List Char :=
    ['\x7b', '"', 's', 'l', 'm', 'p', '"', ':', '\x7b', '"', 'p', 'l', 'c', 's', '"', ':', '[',
     '\x7b', '"', 'n', 'a', 'm', 'e', '"', ':', '"', 'a', '"', ',', '"', 'h', 'o', 's', 't', '"',
     ':', '"', 'h', '"', ',', '"', 'p', 'o', 'r', 't', '"', ':', '6', '5', '5', '3', '6', '\x7d',
     ']', '\x7d', '\x7d']
    let plc : PlcSettings := { name := "a", host := "h", port := 65535 }
    let settings : Settings := { scan := { plcs := [plc] } }
    let digits : List Char := ['6', '5', '5', '3', '6']
    let n : Json5.Number := ⟨.none, .decimal digits none none⟩
    load "gateway.json5" (.bytes (Text.utf8 text)) = .ok settings ∧
    n.integer? = some 65536 ∧
    (∃ tree, Json5.parse? (String.ofList text) = some tree ∧
      (NumberSetting.plc 0 .port).IsWritten tree n) ∧
    (NumberSetting.plc 0 .port).value? settings = some 65535 := by
  intro text plc settings digits n
  refine ⟨by decide +kernel, by decide +kernel, ⟨.object [(some "slmp", .object
    [(some "plcs", .array [.object [(some "name", .string (some "a")),
      (some "host", .string (some "h")), (some "port", .number n)]])])], ?_, ?_⟩, rfl⟩
  · rw [Json5.parse?, String.toList_ofList]
    rfl
  · exact .plc (.named (.head _)) (.named (.head _)) rfl
      (.named (.tail _ (.tail _ (.head _))))

end PlcGateway
