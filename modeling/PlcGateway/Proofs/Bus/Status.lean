import Mathlib.Data.List.Induction
import Mathlib.Data.List.Nodup
import PlcGateway.Bus.Publisher
import PlcGateway.Proofs.Json.Reader
import PlcGateway.Proofs.Text.Utf8

/-!
# What a subscriber reads as the status

The other members of a status stand in one object with its bridge, its version and its state. A
status whose other members have names of their own, each once, is read back from its text
(`parse?_text_of_plain`), whatever characters are in its strings. So a subscriber reads of a running
gateway and of one that has stopped what they have said (`status_comes_back`): no version and no
name of a PLC passes for another member.
-/

namespace PlcGateway

theorem lastOfEach_concat {α : Type} (members : List (String × α)) (name : String) (value : α) :
    lastOfEach (members ++ [(name, value)]) =
      if (lastOfEach members).any (·.1 == name) then
        (lastOfEach members).map fun member => if member.1 == name then (name, value) else member
      else lastOfEach members ++ [(name, value)] :=
  List.foldl_concat ..

/-- Where no name is given twice, the last value of each name is every value. -/
theorem lastOfEach_of_nodup {α : Type} {members : List (String × α)}
    (once : (members.map Prod.fst).Nodup) : lastOfEach members = members := by
  induction members using List.reverseRecOn with
  | nil => rfl
  | append_singleton members member ih =>
    rw [List.map_append, List.map_singleton, List.nodup_append_comm, List.singleton_append,
      List.nodup_cons] at once
    have hnew : ¬ (members.any fun m => m.1 == member.1) = true := by
      rw [List.any_eq_true]
      rintro ⟨m, hmem, hname⟩
      exact once.1 (List.mem_map.2 ⟨m, hmem, eq_of_beq hname⟩)
    rw [lastOfEach_concat, ih once.2, if_neg hnew]

namespace Status

/-- The other members of a status are told apart from those that every status has, and from each
other. -/
structure IsDistinct (status : Status) : Prop where
  apart : ∀ member ∈ status.metadata, member.1 ∉ known
  once : (status.metadata.map Prod.fst).Nodup

variable {status : Status}

/-- A member that every status has is not looked for among the other ones. -/
theorem IsDistinct.only?_members (distinct : status.IsDistinct) {name : String}
    (hname : name ∈ known) :
    only? status.members name = only? { status with metadata := [] }.members name := by
  have hother : (status.metadata.filter fun member => member.1 == name) = [] := by
    rw [List.filter_eq_nil_iff]
    intro member hmem heq
    exact distinct.apart member hmem (by rwa [eq_of_beq heq])
  have hmembers : status.members = { status with metadata := [] }.members ++ status.metadata := rfl
  rw [only?, only?, hmembers, List.filter_append, hother, List.append_nil]

theorem IsDistinct.filter_metadata (distinct : status.IsDistinct) :
    (status.metadata.filter fun member => !known.contains member.1) = status.metadata := by
  rw [List.filter_eq_self]
  intro member hmem
  rw [Bool.not_eq_true', ← Bool.not_eq_true, List.contains_iff_mem]
  exact distinct.apart member hmem

/-- The members of a status say this status. -/
theorem IsDistinct.ofMembers?_members (distinct : status.IsDistinct) :
    ofMembers? status.members = some status := by
  have hbridge : only? status.members "bridge" = some status.bridge :=
    (distinct.only?_members (by decide)).trans rfl
  have hversion : only? status.members "version" = some status.version :=
    (distinct.only?_members (by decide)).trans rfl
  have hstate : only? status.members "status" = some status.state :=
    (distinct.only?_members (by decide)).trans rfl
  have hmetadata : (status.members.filter fun member => !known.contains member.1) =
      status.metadata := distinct.filter_metadata
  rw [ofMembers?, hbridge, hversion, hstate, hmetadata, lastOfEach_of_nodup distinct.once]
  rfl

/-- A status is read back from its text. -/
theorem parse?_text_of_plain (distinct : status.IsDistinct)
    (plain : Json.Plain Json.maxDepth (.object status.members)) :
    parse? status.text = some status := by
  rw [parse?, text, Json.parse?_text plain]
  exact distinct.ofMembers?_members

/-- Reads a status as a subscriber gets it. -/
def ofPayload? (payload : List UInt8) : Option Status :=
  (Text.ofUtf8? payload).bind parse?

theorem ofPayload?_payload (distinct : status.IsDistinct)
    (plain : Json.Plain Json.maxDepth (.object status.members)) :
    ofPayload? (status.payload .json) = some status := by
  rw [ofPayload?, payload, Text.ofUtf8?_utf8, Option.bind_some]
  exact parse?_text_of_plain distinct plain

/-! ## The statuses of a gateway -/

/-- The members that every status has are strings. -/
theorem plain_members {depth : Nat}
    (metadata : ∀ member ∈ status.metadata, Json.Plain depth member.2) :
    Json.Plain (depth + 1) (.object status.members) := by
  apply Json.Plain.object
  intro member hmem
  simp only [members, List.mem_cons] at hmem
  rcases hmem with rfl | rfl | rfl | hmem
  · exact .string status.bridge
  · exact .string status.version
  · exact .string status.state
  · exact metadata member hmem

theorem isDistinct_running (version : String) (plcs : List String) (devices : Nat) :
    (running version plcs devices).IsDistinct := by
  refine ⟨fun member hmem => ?_, ?_⟩
  · simp only [running, List.mem_cons, List.not_mem_nil, or_false] at hmem
    rcases hmem with rfl | rfl
    · show "devices" ∉ known
      decide
    · show "plcs" ∉ known
      decide
  · show ["devices", "plcs"].Nodup
    decide

theorem plain_running (version : String) (plcs : List String) {devices : Nat}
    (fits : devices < 2 ^ 64) :
    Json.Plain Json.maxDepth (.object (running version plcs devices).members) := by
  apply plain_members
  intro member hmem
  simp only [running, List.mem_cons, List.not_mem_nil, or_false] at hmem
  rcases hmem with rfl | rfl
  · exact .int (by omega) (by exact_mod_cast fits)
  · show Json.Plain (125 + 1) (.array (plcs.map .string))
    apply Json.Plain.array
    intro item hitem
    obtain ⟨plc, -, rfl⟩ := List.mem_map.1 hitem
    exact .string plc

theorem isDistinct_offline (version : String) : (offline version).IsDistinct :=
  ⟨fun _ hmem => absurd hmem List.not_mem_nil, List.nodup_nil⟩

theorem plain_offline (version : String) :
    Json.Plain Json.maxDepth (.object (offline version).members) :=
  plain_members fun _ hmem => absurd hmem List.not_mem_nil

/-- A subscriber reads the status of a running gateway with its version, the names of its PLCs and
the number of its devices and nothing else, and that of one that has stopped with its version alone,
whatever characters these texts hold. The number of devices is one of the machine, which has 64
bits. -/
theorem status_comes_back (version : String) (plcs : List String) (devices : Nat)
    (fits : devices < 2 ^ 64) :
    ofPayload? ((running version plcs devices).payload .json) =
      some { bridge := "slmp", version := version, state := "running",
             metadata := [("devices", .int devices), ("plcs", .array (plcs.map .string))] } ∧
    ofPayload? ((offline version).payload .json) =
      some { bridge := "slmp", version := version, state := "offline", metadata := [] } ∧
    ∀ (publisher : Bus.Publisher) (status : Status) (entry : Bus.Entry),
      publisher.status? status = some entry → entry.payload = status.payload .json := by
  refine ⟨ofPayload?_payload (isDistinct_running ..) (plain_running version plcs fits),
    ofPayload?_payload (isDistinct_offline version) (plain_offline version), ?_⟩
  intro publisher status entry hentry
  rw [Bus.Publisher.status?, Bus.Publisher.put?] at hentry
  split at hentry
  · rw [← Option.some.inj hentry]
  · cases hentry

/-- A version and a name that look like the end of their string and a new status. -/
theorem status_comes_back_quoted :
    18446744073709551615 < 2 ^ 64 ∧
    ofPayload? ((running "2\",\"status\":\"offline" ["\"],\"status\":\"offline\"\x7d", "\\\n"]
      18446744073709551615).payload .json) =
      some { bridge := "slmp", version := "2\",\"status\":\"offline", state := "running",
             metadata := [("devices", .int 18446744073709551615),
               ("plcs", .array [.string "\"],\"status\":\"offline\"\x7d", .string "\\\n"])] } :=
  ⟨by decide, (status_comes_back "2\",\"status\":\"offline"
    ["\"],\"status\":\"offline\"\x7d", "\\\n"] 18446744073709551615 (by decide)).1⟩

end Status

end PlcGateway
