import Mathlib.Data.List.Basic
import PlcGateway.Device.List
import PlcGateway.Proofs.Device.Address
import PlcGateway.Proofs.Text.Blank
import PlcGateway.Proofs.Text.Cut
import PlcGateway.Proofs.Text.Hexadecimal

/-!
# Device lists, read and written

A device list is a row of triples, and each triple gives the device that it describes or none,
whatever stands around it. A list that is no row of triples gives nothing at all. Devices that are
written as a list are read back as they are, and so is a device that is written as a write target
(`parseList_reads`).
-/

namespace PlcGateway

/-! ## Fields between commas -/

/-- A text that is one field, without blanks around it. -/
structure IsField (field : String) : Prop where
  whole : ',' ∉ field.toList
  trimmed : Text.trimmed field = field

section Fields

variable {field : String} {list : String}

theorem commaFields_of_isField (h : IsField field) : commaFields field = [field] := by
  unfold commaFields
  rw [Text.fields_of_not_mem h.whole]
  show [Text.trimmed field] = [field]
  rw [h.trimmed]

theorem isField_of_mem_commaFields (h : field ∈ commaFields list) : IsField field := by
  obtain ⟨piece, hpiece, rfl⟩ := List.mem_map.1 h
  refine ⟨?_, Text.trimmed_ofList_trim piece⟩
  rw [String.toList_ofList]
  intro hmem
  exact Text.not_mem_of_mem_fields hpiece (Text.mem_of_mem_trim hmem)

/-- A comma between two texts keeps their fields apart. -/
theorem commaFields_append (list other : String) :
    commaFields (list ++ "," ++ other) = commaFields list ++ commaFields other := by
  have htext : (list ++ "," ++ other).toList = list.toList ++ ',' :: other.toList := by
    rw [String.toList_append, String.toList_append, List.append_assoc]
    rfl
  unfold commaFields
  rw [htext, Text.fields_append, List.map_append]

theorem commaFields_of_allBlank (h : Text.allBlank list.toList = true) :
    (commaFields list).length = 1 := by
  have whole : ',' ∉ list.toList := by
    intro hmem
    exact absurd (Text.isBlank_of_allBlank h ',' hmem) (by decide)
  unfold commaFields
  rw [Text.fields_of_not_mem whole]
  rfl

end Fields

/-! ## Groups of three -/

section Triples

variable {α : Type} {xs : List α} {triples : List (α × α × α)}

/-- The parts of a triple in a row. -/
def tripleParts (t : α × α × α) : List α := [t.1, t.2.1, t.2.2]

theorem triples?_eq_some_iff : triples? xs = some triples ↔ xs = triples.flatMap tripleParts := by
  fun_induction triples? xs generalizing triples with
  | case1 => cases triples <;> simp [tripleParts]
  | case2 a b c rest ih =>
    rw [Option.map_eq_some_iff]
    constructor
    · rintro ⟨more, hrest, rfl⟩
      rw [List.flatMap_cons, ← ih.1 hrest]
      rfl
    · intro h
      cases triples with
      | nil => cases h
      | cons t more =>
        obtain ⟨a', b', c'⟩ := t
        rw [List.flatMap_cons] at h
        simp only [tripleParts, List.cons_append, List.nil_append, List.cons.injEq] at h
        obtain ⟨rfl, rfl, rfl, hrest⟩ := h
        exact ⟨more, ih.2 hrest, rfl⟩
  | case3 xs hnil hmore =>
    simp only [reduceCtorEq, false_iff]
    rintro rfl
    cases triples with
    | nil => exact hnil rfl
    | cons t more => exact hmore t.1 t.2.1 t.2.2 _ rfl

theorem length_flatMap_tripleParts (triples : List (α × α × α)) :
    (triples.flatMap tripleParts).length = 3 * triples.length := by
  induction triples with
  | nil => rfl
  | cons t more ih =>
    rw [List.flatMap_cons, List.length_append, ih, List.length_cons]
    show 3 + 3 * more.length = _
    omega

/-- A list can be divided by three exactly if its length can. -/
theorem exists_triples_iff :
    (∃ triples : List (α × α × α), xs = triples.flatMap tripleParts) ↔ xs.length % 3 = 0 := by
  constructor
  · rintro ⟨triples, rfl⟩
    rw [length_flatMap_tripleParts, Nat.mul_mod_right]
  · intro h
    simp only [← triples?_eq_some_iff]
    fun_induction triples? xs with
    | case1 => exact ⟨[], rfl⟩
    | case2 a b c rest ih =>
      simp only [List.length_cons] at h
      obtain ⟨more, hmore⟩ := ih (by omega)
      exact ⟨(a, b, c) :: more, by rw [hmore]; rfl⟩
    | case3 xs hnil hmore =>
      exfalso
      rcases xs with _ | ⟨a, _ | ⟨b, _ | ⟨c, rest⟩⟩⟩
      · exact hnil rfl
      · simp at h
      · simp at h
      · exact hmore a b c rest rfl

end Triples

/-! ## Triples -/

theorem DeviceCode.parse?_eq_some_iff {text : String} {code : DeviceCode} :
    DeviceCode.parse? text = some code ↔
      (Text.trim text.toList).map Text.upperAscii = code.mnemonic.toList := by
  show DeviceCode.all.find? (fun c => c.mnemonic.toList ==
    (Text.trim text.toList).map Text.upperAscii) = some code ↔ _
  constructor
  · intro h
    have hcode := List.find?_some h
    exact (beq_iff_eq.1 hcode).symm
  · intro h
    rw [h]
    cases code <;> decide

theorem RegisterFormat.ofCode?_eq_some_iff {n : Nat} {format : RegisterFormat} :
    RegisterFormat.ofCode? n = some format ↔ n = format.code := by
  constructor
  · intro h
    unfold RegisterFormat.ofCode? at h
    split at h <;> cases h <;> rfl
  · rintro rfl
    exact RegisterFormat.ofCode?_code format

namespace Device

variable {device : Device} {code number : String} {format : RegisterFormat} {registers : UInt16}
  {t : String × String × String} {list : String}

/-- A device is what its code, number, format and count say; the offset follows from the number. -/
theorem make_eq_ok_iff : make code number format registers = .ok device ↔
    DeviceCode.parse? code = some device.code ∧ Text.trimmed number = device.number ∧
      format = device.format ∧ (if registers = 0 then 1 else registers) = device.registers := by
  unfold make
  constructor
  · intro made
    split at made
    · cases made
    · next c hcode =>
      split at made
      · cases made
      · obtain rfl := Except.ok.inj made
        exact ⟨hcode, rfl, rfl, rfl⟩
  · obtain ⟨c, n, offset, f, count, htrimmed, hoffset, hpos⟩ := device
    rintro ⟨hcode, rfl, rfl, rfl⟩
    rw [hcode]
    simp only
    split
    · next hnone =>
      rw [Text.trimmed, String.toList_ofList] at hoffset hnone
      rw [hnone] at hoffset
      cases hoffset
    · next offset' hsome =>
      rw [hsome] at hoffset
      obtain rfl := Option.some.inj hoffset
      rfl

/-- A triple of code, number and format describes a device with the registers of that format. -/
structure Describes (t : String × String × String) (device : Device) : Prop where
  code_eq : (Text.trim t.1.toList).map Text.upperAscii = device.code.mnemonic.toList
  number_eq : Text.trimmed t.2.1 = device.number
  format_eq : Text.IsDecimal (Text.dropPlus t.2.2.toList) device.format.code
  registers_eq : device.registers = device.format.registers

theorem ofTriple?_iff : ofTriple? t = some device ↔ Describes t device := by
  obtain ⟨code, number, written⟩ := t
  have hformat : ∀ n, (Text.readNat 10 255 written.toList).toOption = some n ↔
      Text.IsDecimal (Text.dropPlus written.toList) n ∧ n ≤ 255 := by
    intro n
    rw [← Text.readNat_ten_iff]
    cases Text.readNat 10 255 written.toList <;> simp [Except.toOption]
  have hmake : ∀ format : RegisterFormat, (ofFormat code number format).toOption = some device ↔
      DeviceCode.parse? code = some device.code ∧ Text.trimmed number = device.number ∧
        format = device.format ∧ format.registers = device.registers := by
    intro format
    have hregisters : (if format.registers = 0 then 1 else format.registers) = format.registers :=
      if_neg (by cases format <;> decide)
    rw [← hregisters, ← make_eq_ok_iff]
    unfold ofFormat
    cases make code number format format.registers <;> simp [Except.toOption]
  unfold ofTriple?
  simp only [Option.bind_eq_bind, Option.bind_eq_some_iff, hformat, hmake,
    RegisterFormat.ofCode?_eq_some_iff, DeviceCode.parse?_eq_some_iff]
  constructor
  · rintro ⟨n, ⟨number', -⟩, format, rfl, hcode, hnumber, rfl, hregisters⟩
    exact ⟨hcode, hnumber, number', hregisters.symm⟩
  · intro h
    refine ⟨_, ⟨h.format_eq, ?_⟩, _, rfl, h.code_eq, h.number_eq, rfl, h.registers_eq.symm⟩
    cases device.format <;> decide

/-! ## Lists -/

/-- A list of nothing but blanks has one field, so it is no row of triples either. -/
theorem parseList_eq (list : String) : parseList list =
    match triples? (commaFields list) with
    | none => []
    | some triples => triples.filterMap ofTriple? := by
  unfold parseList
  split
  · next blank =>
    split
    · rfl
    · next triples htriples =>
      have hlength := congrArg List.length (triples?_eq_some_iff.1 htriples)
      rw [length_flatMap_tripleParts, commaFields_of_allBlank blank] at hlength
      omega
  · rfl

theorem parseList_of_flatMap {triples : List (String × String × String)}
    (h : commaFields list = triples.flatMap tripleParts) :
    parseList list = triples.filterMap ofTriple? := by
  rw [parseList_eq, triples?_eq_some_iff.2 h]

theorem parseList_of_other (h : (commaFields list).length % 3 ≠ 0) : parseList list = [] := by
  rw [parseList_eq]
  split
  · rfl
  · next triples htriples =>
    exact absurd (exists_triples_iff.1 ⟨triples, triples?_eq_some_iff.1 htriples⟩) h

/-- A listed device is read from as many registers as its format has. -/
theorem registers_of_parseList {device : Device} (listed : device ∈ parseList list) :
    device.registers = device.format.registers := by
  rw [parseList_eq] at listed
  split at listed
  · exact absurd listed List.not_mem_nil
  · obtain ⟨t, -, htriple⟩ := List.mem_filterMap.1 listed
    exact (ofTriple?_iff.1 htriple).registers_eq

theorem parseList_append {other : String} (hlist : (commaFields list).length % 3 = 0)
    (hother : (commaFields other).length % 3 = 0) :
    parseList (list ++ "," ++ other) = parseList list ++ parseList other := by
  obtain ⟨triples, htriples⟩ := exists_triples_iff.2 hlist
  obtain ⟨others, hothers⟩ := exists_triples_iff.2 hother
  have happend : commaFields (list ++ "," ++ other) = (triples ++ others).flatMap tripleParts := by
    rw [commaFields_append, htriples, hothers, List.flatMap_append]
  rw [parseList_of_flatMap happend, parseList_of_flatMap htriples, parseList_of_flatMap hothers,
    List.filterMap_append]

/-- The text of a triple. -/
def tripleOf (t : String × String × String) : String := t.1 ++ "," ++ t.2.1 ++ "," ++ t.2.2

theorem commaFields_tripleOf (fields : ∀ field ∈ tripleParts t, IsField field) :
    commaFields (tripleOf t) = tripleParts t := by
  obtain ⟨code, number, format⟩ := t
  simp only [tripleParts, List.forall_mem_cons] at fields
  obtain ⟨hcode, hnumber, hformat, -⟩ := fields
  show commaFields (code ++ "," ++ number ++ "," ++ format) = [code, number, format]
  rw [commaFields_append, commaFields_append, commaFields_of_isField hcode,
    commaFields_of_isField hnumber, commaFields_of_isField hformat]
  rfl

theorem parseList_tripleOf (fields : ∀ field ∈ tripleParts t, IsField field) :
    parseList (tripleOf t) = (ofTriple? t).toList := by
  have hone : commaFields (tripleOf t) = [t].flatMap tripleParts := by
    rw [commaFields_tripleOf fields, List.flatMap_singleton]
  rw [parseList_of_flatMap hone, List.filterMap_eq_flatMap_toList, List.flatMap_singleton]

/-- A row of triples is read one triple after the other. -/
theorem exists_parseList_eq (h : (commaFields list).length % 3 = 0) :
    ∃ triples : List (String × String × String), commaFields list = triples.flatMap tripleParts ∧
      parseList list = triples.flatMap (fun t => parseList (tripleOf t)) ∧
      ∀ t ∈ triples, ∃ device? : Option Device, parseList (tripleOf t) = device?.toList ∧
        ∀ device, device? = some device ↔ Describes t device := by
  obtain ⟨triples, htriples⟩ := exists_triples_iff.2 h
  have fields : ∀ t ∈ triples, ∀ field ∈ tripleParts t, IsField field := by
    intro t ht field hfield
    have hmem : field ∈ commaFields list := by
      rw [htriples]
      exact List.mem_flatMap_of_mem ht hfield
    exact isField_of_mem_commaFields hmem
  refine ⟨triples, htriples, ?_, ?_⟩
  · rw [parseList_of_flatMap htriples, List.filterMap_eq_flatMap_toList]
    exact List.flatMap_congr fun t ht => (parseList_tripleOf (fields t ht)).symm
  · intro t ht
    exact ⟨ofTriple? t, parseList_tripleOf (fields t ht), fun device => ofTriple?_iff⟩

/-! ## Devices that are written -/

/-- The fields that a device is written with. -/
def triple (device : Device) : String × String × String :=
  (device.code.mnemonic, device.number, toString device.format.code)

theorem isField_number (device : Device) : IsField device.number := by
  refine ⟨?_, device.number_trimmed⟩
  obtain ⟨radix, n, hread⟩ := DeviceCode.exists_readNat_of_offset? device.number_offset
  intro hmem
  exact absurd (Text.isAlphanum_of_readNat hread ',' hmem) (by decide)

theorem number_ne_empty (device : Device) : device.number.isEmpty = false := by
  obtain ⟨radix, n, hread⟩ := DeviceCode.exists_readNat_of_offset? device.number_offset
  rw [Bool.eq_false_iff, Ne, String.isEmpty_iff]
  intro hempty
  rw [hempty] at hread
  cases hread

theorem isField_triple (device : Device) : ∀ field ∈ tripleParts device.triple, IsField field := by
  have hcode : IsField device.code.mnemonic := by
    cases device.code <;> exact ⟨by decide, by decide⟩
  have hformat : IsField (toString device.format.code) := by
    cases device.format <;> exact ⟨by decide, by decide⟩
  exact List.forall_mem_cons.2 ⟨hcode, List.forall_mem_cons.2
    ⟨device.isField_number, List.forall_mem_singleton.2 hformat⟩⟩

theorem describes_triple (registers : device.registers = device.format.registers) :
    Describes device.triple device where
  code_eq := by
    show (Text.trim device.code.mnemonic.toList).map Text.upperAscii = device.code.mnemonic.toList
    cases device.code <;> decide
  number_eq := device.number_trimmed
  format_eq := by
    show Text.IsDecimal (Text.dropPlus (toString device.format.code).toList) device.format.code
    cases device.format <;> exact ⟨by decide, List.all_eq_true.1 (by decide), by decide⟩
  registers_eq := registers

theorem tripleText_eq (device : Device) : device.tripleText = tripleOf device.triple := rfl

theorem commaFields_listText {devices : List Device} (hne : devices ≠ []) :
    commaFields (listText devices) = (devices.map triple).flatMap tripleParts := by
  induction devices with
  | nil => exact absurd rfl hne
  | cons device rest ih =>
    have hfirst := commaFields_tripleOf device.isField_triple
    cases rest with
    | nil =>
      show commaFields (String.intercalate "," [device.tripleText]) = _
      rw [String.intercalate_singleton, tripleText_eq, hfirst, List.map_singleton,
        List.flatMap_singleton]
    | cons next rest =>
      have htext : listText (device :: next :: rest) =
          tripleOf device.triple ++ "," ++ listText (next :: rest) :=
        String.intercalate_cons_cons
      rw [htext, commaFields_append, hfirst, ih (List.cons_ne_nil next rest)]
      rfl

/-- Devices with the registers of their formats are read back from their list. -/
theorem parseList_listText {devices : List Device}
    (registers : ∀ device ∈ devices, device.registers = device.format.registers) :
    parseList (listText devices) = devices := by
  cases devices with
  | nil => rfl
  | cons device rest =>
    rw [parseList_of_flatMap (commaFields_listText (List.cons_ne_nil device rest)),
      List.filterMap_map]
    have hread : ∀ d ∈ device :: rest, (ofTriple? ∘ triple) d = some d :=
      fun d hd => ofTriple?_iff.2 (describes_triple (registers d hd))
    rw [List.filterMap_congr hread, List.filterMap_some]

theorem numberOrOne_toString {limit n : Nat} (h : n ≤ limit) :
    numberOrOne limit (some (toString n)) = n := by
  have hread : Text.readNat 10 limit (toString n).toList = .ok n := by
    have number := Text.isDecimal_decimal n
    rw [Nat.toString_eq_ofList_toDigits, String.toList_ofList, Text.readNat_ten_iff]
    exact ⟨number.dropPlus.symm ▸ number, h⟩
  unfold numberOrOne
  simp only [hread, Except.toOption, Option.getD_some]

/-- Every device is read back from its write target. -/
theorem parseTarget_targetText (device : Device) :
    parseTarget device.targetText = .ok device := by
  have hcount : IsField (toString device.registers.toNat) := by
    have number := Text.isDecimal_decimal device.registers.toNat
    rw [Nat.toString_eq_ofList_toDigits]
    refine ⟨?_, ?_⟩
    · rw [String.toList_ofList]
      exact fun hmem => absurd (number.isDigit ',' hmem) (by decide)
    · rw [Text.trimmed, String.toList_ofList]
      exact congrArg String.ofList (Text.trim_of_integer?
        (Text.integer?_of_natural? (Text.natural?_decimal device.registers.toNat)))
  have hfields : commaFields device.targetText = [device.code.mnemonic, device.number,
      toString device.format.code, toString device.registers.toNat] := by
    show commaFields (tripleOf device.triple ++ "," ++ toString device.registers.toNat) = _
    rw [commaFields_append, commaFields_tripleOf device.isField_triple,
      commaFields_of_isField hcount]
    rfl
  have hmnemonic : device.code.mnemonic.isEmpty = false := by cases device.code <;> rfl
  have hformat : numberOrOne 255 (some (toString device.format.code)) = device.format.code :=
    numberOrOne_toString (by cases device.format <;> decide)
  have hregisters : numberOrOne 65535 (some (toString device.registers.toNat)) =
      device.registers.toNat :=
    numberOrOne_toString (Nat.le_of_lt_succ device.registers.toNat_lt)
  have hmake : make device.code.mnemonic device.number device.format
      (UInt16.ofNat device.registers.toNat) = .ok device := by
    rw [make_eq_ok_iff, UInt16.ofNat_toNat]
    have hpos := UInt16.pos_iff_ne_zero.1 device.registers_pos
    refine ⟨?_, device.number_trimmed, rfl, if_neg hpos⟩
    rw [DeviceCode.parse?_eq_some_iff]
    cases device.code <;> decide
  unfold parseTarget
  rw [hfields]
  simp only [hmnemonic, device.number_ne_empty, Bool.or_false, Bool.false_eq_true, if_false,
    List.getElem?_cons_zero, List.getElem?_cons_succ, hformat, hregisters,
    RegisterFormat.ofCode, RegisterFormat.ofCode?_code, hmake]

/-- A row of triples is read as the devices that its triples describe one by one, in order, so a
comma between two rows leaves both as they are; every other list is read as nothing. Devices with
the registers of their formats are read back from the list that they are written as, and every
device from its write target. -/
theorem parseList_reads :
    (∀ list, (commaFields list).length % 3 = 0 →
      ∃ triples : List (String × String × String), commaFields list = triples.flatMap tripleParts ∧
        parseList list = triples.flatMap (fun t => parseList (tripleOf t)) ∧
        ∀ t ∈ triples, ∃ device? : Option Device, parseList (tripleOf t) = device?.toList ∧
          ∀ device, device? = some device ↔ Describes t device) ∧
    (∀ list other, (commaFields list).length % 3 = 0 → (commaFields other).length % 3 = 0 →
      parseList (list ++ "," ++ other) = parseList list ++ parseList other) ∧
    (∀ list, (commaFields list).length % 3 ≠ 0 → parseList list = []) ∧
    (∀ devices : List Device, (∀ device ∈ devices, ∃ code number format,
        ofFormat code number format = .ok device) → parseList (listText devices) = devices) ∧
    ∀ device : Device, parseTarget device.targetText = .ok device := by
  refine ⟨fun list => exists_parseList_eq, fun list other => parseList_append,
    fun list => parseList_of_other, ?_, parseTarget_targetText⟩
  intro devices made
  apply parseList_listText
  intro device hdevice
  obtain ⟨code, number, format, hmake⟩ := made device hdevice
  obtain ⟨-, -, rfl, hregisters⟩ := make_eq_ok_iff.1 hmake
  rw [← hregisters, if_neg (by cases device.format <;> decide)]

/-- A triple that names no area leaves the two beside it as they are. -/
theorem parseList_reads_between :
    (commaFields " D, 100,1").length % 3 = 0 ∧ (commaFields "Q,1,1,y,1F,3").length % 3 = 0 ∧
    parseList " D, 100,1,Q,1,1,y,1F,3" = parseList "D,100,1" ++ parseList "Y,1F,3" := by
  have hlist : (commaFields " D, 100,1").length % 3 = 0 := by decide
  have hother : (commaFields "Q,1,1,y,1F,3").length % 3 = 0 := by decide
  refine ⟨hlist, hother, ?_⟩
  have h := parseList_reads.2.1 " D, 100,1" "Q,1,1,y,1F,3" hlist hother
  have hspaces : parseList " D, 100,1" = parseList "D,100,1" := by decide
  have hskipped : parseList "Q,1,1,y,1F,3" = parseList "Y,1F,3" := by decide
  rw [hspaces, hskipped] at h
  exact h

end Device

end PlcGateway
