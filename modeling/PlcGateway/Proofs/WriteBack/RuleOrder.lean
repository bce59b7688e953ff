import Mathlib.Data.List.Count
import PlcGateway.Proofs.WriteBack.Account
import PlcGateway.Proofs.WriteBack.Writer

/-!
# The order of the rules

Rules that share a source compete for its value, and a value that could not be written is there
again for the next rule. Where no address is a bit and a source at once, trying one rule does not
disturb the bit of another, and a writer that goes by the target and the value alone answers every
rule on a source alike. So which sources are delivered in a round is told without the order of the
rules (`Round.mem_consumed_iff`), and neither the outcome of an evaluation, nor the cache it leaves,
nor the writes that succeed depend on that order (`evaluate_perm`).
-/

namespace PlcGateway

open Trial (consumed)

/-- Whether a write succeeds depends on its target and its value alone. -/
def Writer.IsSteady {σ : Type} (write : Writer σ) (accepts : WriteTarget → WriteValue → Bool) :
    Prop :=
  ∀ target value s, (write target value s).1 = accepts target value

namespace WriteMap

/-- No address is the bit of a rule and the source of a rule. -/
def IsApart (map : WriteMap) : Prop :=
  ∀ rule ∈ map.rules, ∀ other ∈ map.rules, rule.bit ≠ other.source

/-- What the writer is asked for while a message is evaluated, in this order. -/
def asked {σ : Type} (map : WriteMap) (write : Writer σ) (message : Message) (cache : Cache)
    (s : σ) : List Written :=
  (map.evaluate write.recorded message cache ([], s)).2.2.1

/-- A source that is mapped and cached is written with success: some rule on it is triggered, and
the writer accepts its value. -/
structure Delivers (map : WriteMap) (accepts : WriteTarget → WriteValue → Bool) (cache : Cache)
    (source : String) : Prop where
  wanted : ∃ rule ∈ map.rules, rule.source = source ∧ rule.isTriggered cache = true
  accepted : ∃ target value, map.target? source = some target ∧
    cache.get? source = some value ∧ accepts target value.toWrite = true

/-- The successful write of a source. -/
def delivery? (map : WriteMap) (cache : Cache) (source : String) : Option Written :=
  (map.target? source).bind fun target =>
    (cache.get? source).map fun value => ⟨target, value.toWrite, true⟩

/-- The write of the message itself, if there is one: no rule names its address, the address is
mapped, and the value is not zero. -/
def IsDirect (map : WriteMap) (message : Message) (direct : Option Written) : Prop :=
  ∀ target value, (∃ succeeded, direct = some ⟨target, value, succeeded⟩) ↔
    map.participates message.address = false ∧ map.target? message.address = some target ∧
      message.value.isNonzero = true ∧ value = message.value.toWrite

end WriteMap

variable {σ : Type} {map : WriteMap} {rules : List Rule} {cache final : Cache}
  {trials : List Trial} {accepts : WriteTarget → WriteValue → Bool} {write : Writer σ} {s : σ}
  {message : Message} {source : String}

/-! ## Which sources are delivered -/

/-- A rule whose bit is no source stays enabled when other sources leave the cache. -/
theorem Rule.IsEnabled.without {rule : Rule} {addresses : List String}
    (enabled : rule.IsEnabled map cache) (bit : rule.bit ∉ addresses)
    (source : rule.source ∉ addresses) : rule.IsEnabled map (cache.without addresses) := by
  obtain ⟨triggered, mapped, cached⟩ := enabled
  refine ⟨?_, mapped, ?_⟩
  · rw [← triggered]
    apply Rule.isTriggered_congr
    rw [Cache.get?_without, if_neg bit]
  · rw [Cache.get?_without, if_neg source]
    exact cached

namespace Round

/-- A source leaves the cache in a round over all rules exactly if it is delivered, whatever the
order of the rules. -/
theorem mem_consumed_iff (round : Round map map.rules cache trials final) (apart : map.IsApart)
    (steady : ∀ trial ∈ trials, trial.succeeded = accepts trial.target trial.value.toWrite) :
    source ∈ consumed trials ↔ map.Delivers accepts cache source := by
  constructor
  · intro hsource
    obtain ⟨trial, hmem, rfl⟩ := List.mem_map.1 hsource
    obtain ⟨hmem, hsucceeded⟩ := List.mem_filter.1 hmem
    have due := round.due trial hmem
    have hrule := round.sublist.subset (List.mem_map_of_mem hmem)
    rw [steady trial hmem] at hsucceeded
    exact ⟨⟨trial.rule, hrule, rfl, due.triggered⟩, _, _, due.mapped, due.cached, hsucceeded⟩
  · rintro ⟨⟨rule, hrule, rfl, triggered⟩, target, value, mapped, cached, accepted⟩
    by_contra hleft
    have hbit : rule.bit ∉ consumed trials := by
      intro hbit
      obtain ⟨trial, hmem, heq⟩ := List.mem_map.1 hbit
      have hother := round.sublist.subset (List.mem_map_of_mem (List.mem_of_mem_filter hmem))
      exact apart rule hrule trial.rule hother heq.symm
    have enabled : rule.IsEnabled map final := by
      rw [round.final_eq]
      have before : rule.IsEnabled map cache :=
        ⟨triggered, by rw [mapped]; rfl, by rw [cached]; rfl⟩
      exact before.without hbit hleft
    -- a rule that is enabled in the end has written in vain, but the writer accepts the value
    obtain ⟨trial, hmem, rfl, hfailed⟩ := round.failed_of_enabled rule hrule enabled
    have due := round.due trial hmem
    rw [steady trial hmem, Option.some.inj (due.mapped.symm.trans mapped),
      Option.some.inj (due.cached.symm.trans cached), accepted] at hfailed
    exact Bool.noConfusion hfailed

/-- The writes of a round that succeed are those of the sources that leave the cache. -/
theorem filter_succeeded (round : Round map rules cache trials final) :
    (trials.map Trial.written).filter Written.succeeded =
      (consumed trials).filterMap (map.delivery? cache) := by
  have hdelivery : ∀ trial ∈ trials.filter Trial.succeeded,
      (map.delivery? cache ∘ fun trial => trial.rule.source) trial = some trial.written := by
    intro trial hmem
    obtain ⟨hmem, hsucceeded⟩ := List.mem_filter.1 hmem
    have due := round.due trial hmem
    show map.delivery? cache trial.rule.source = some trial.written
    unfold WriteMap.delivery? Trial.written
    rw [due.mapped, due.cached, hsucceeded]
    rfl
  rw [consumed, List.filterMap_map, List.filter_map, List.filterMap_congr hdelivery]
  show (trials.filter Trial.succeeded).map Trial.written = _
  rw [← List.filterMap_eq_map]
  rfl

end Round

/-! ## What an evaluation does -/

/-- All that a steady writer is asked for has the answer that it always gives. -/
theorem Writer.IsSteady.asked (steady : write.IsSteady accepts) (map : WriteMap)
    (message : Message) (cache : Cache) (s : σ) :
    ∀ w ∈ map.asked write message cache s, w.succeeded = accepts w.target w.value := by
  have keeps : write.recorded.Keeps map fun t =>
      ∀ w ∈ t.1, w.succeeded = accepts w.target w.value := by
    intro address target value t _ h w hw
    rcases List.mem_append.1 hw with hw | hw
    · exact h w hw
    · obtain rfl := List.mem_singleton.1 hw
      exact steady target value t.2
  exact keeps.evaluate (List.forall_mem_nil _) message cache

namespace WriteMap

/-- An evaluation is a round over the rules, and then the write of the message itself, if there is
one. -/
theorem evaluate_trials (map : WriteMap) (write : Writer σ) (message : Message) (cache : Cache)
    (s : σ) : ∃ trials direct,
      Round map map.rules (map.hold message cache) trials (map.evaluate write message cache s).2.1 ∧
      map.IsDirect message direct ∧
      (map.evaluate write message cache s).1 = ⟨map.participates message.address,
        (consumed trials).length, direct.any Written.succeeded⟩ ∧
      map.asked write message cache s = trials.map Trial.written ++ direct.toList := by
  obtain ⟨trials, final, s', round, hplain, hrecorded⟩ :=
    map.fireAll_round write map.rules (map.hold message cache) s []
  obtain ⟨direct, hdirect, hdefault, hcached, hcount, hasked⟩ := evaluate_direct hplain hrecorded
  refine ⟨trials, direct, ?_, hdirect, ?_, ?_⟩
  · rw [evaluate_cache, hplain]
    exact round
  · have hany : (map.evaluate write message cache s).1.defaultWrite =
        direct.any Written.succeeded := by
      rw [Bool.eq_iff_iff, hdefault]
      cases direct <;> simp
    have hlength : trials.countP Trial.succeeded = (consumed trials).length := by
      rw [consumed, List.length_map, List.countP_eq_length_filter]
    rw [← hcached, ← hlength, ← hcount, ← hany]
  · unfold asked
    rw [hasked]
    rfl

/-- A steady writer leaves no choice for the write of the message itself. -/
theorem IsDirect.unique {direct direct' : Option Written} (h : map.IsDirect message direct)
    (h' : map.IsDirect message direct')
    (steady : ∀ w ∈ direct, w.succeeded = accepts w.target w.value)
    (steady' : ∀ w ∈ direct', w.succeeded = accepts w.target w.value) : direct = direct' := by
  have of_some : ∀ {d d' : Option Written}, map.IsDirect message d → map.IsDirect message d' →
      (∀ w ∈ d, w.succeeded = accepts w.target w.value) →
      (∀ w ∈ d', w.succeeded = accepts w.target w.value) → ∀ w, d = some w → d' = some w := by
    intro d d' hd hd' hs hs' w hw
    obtain ⟨succeeded, hw'⟩ := (hd' w.target w.value).2 ((hd w.target w.value).1 ⟨_, hw⟩)
    have hsucceeded : succeeded = w.succeeded := (hs' _ hw').trans (hs w hw).symm
    rw [hw', hsucceeded]
  apply Option.ext
  intro w
  exact ⟨of_some h h' steady steady' w, of_some h' h steady' steady w⟩

/-- With a steady writer, an evaluation delivers its sources whatever the order of the rules. -/
theorem evaluate_delivers (apart : map.IsApart) (steady : write.IsSteady accepts)
    (message : Message) (cache : Cache) (s : σ) : ∃ trials direct,
      Round map map.rules (map.hold message cache) trials (map.evaluate write message cache s).2.1 ∧
      map.IsDirect message direct ∧
      (map.evaluate write message cache s).1 = ⟨map.participates message.address,
        (consumed trials).length, direct.any Written.succeeded⟩ ∧
      map.asked write message cache s = trials.map Trial.written ++ direct.toList ∧
      (∀ source, source ∈ consumed trials ↔
        map.Delivers accepts (map.hold message cache) source) ∧
      ∀ w ∈ direct, w.succeeded = accepts w.target w.value := by
  obtain ⟨trials, direct, round, hdirect, houtcome, hasked⟩ :=
    map.evaluate_trials write message cache s
  have answers := steady.asked map message cache s
  rw [hasked, List.forall_mem_append] at answers
  refine ⟨trials, direct, round, hdirect, houtcome, hasked, fun source => ?_, fun w hw => ?_⟩
  · apply round.mem_consumed_iff apart
    intro trial hmem
    exact answers.1 _ (List.mem_map_of_mem hmem)
  · exact answers.2 w (Option.mem_toList.2 hw)

/-! ## Other orders -/

section Perm

variable (perm : map.rules.Perm rules)

include perm

theorem participates_perm (address : String) :
    { map with rules := rules }.participates address = map.participates address :=
  perm.symm.any_eq

theorem hold_perm (message : Message) (cache : Cache) :
    { map with rules := rules }.hold message cache = map.hold message cache := by
  unfold hold
  rw [participates_perm perm]

theorem isApart_perm (apart : map.IsApart) : { map with rules := rules }.IsApart := by
  intro rule hrule other hother
  exact apart rule (perm.mem_iff.2 hrule) other (perm.mem_iff.2 hother)

theorem isDirect_perm {direct : Option Written} :
    { map with rules := rules }.IsDirect message direct ↔ map.IsDirect message direct := by
  unfold IsDirect
  rw [participates_perm perm]
  rfl

theorem delivers_perm : { map with rules := rules }.Delivers accepts cache source ↔
    map.Delivers accepts cache source := by
  constructor
  · rintro ⟨⟨rule, hrule, wanted⟩, accepted⟩
    exact ⟨⟨rule, perm.mem_iff.2 hrule, wanted⟩, accepted⟩
  · rintro ⟨⟨rule, hrule, wanted⟩, accepted⟩
    exact ⟨⟨rule, perm.mem_iff.1 hrule, wanted⟩, accepted⟩

end Perm

/-- The order of the rules changes neither the outcome of an evaluation, nor the cache it leaves,
nor which writes succeed. Every source is written with success at most once, and exactly if it is
delivered; what else is written is the message itself. -/
theorem evaluate_perm (perm : map.rules.Perm rules) (apart : map.IsApart)
    (steady : write.IsSteady accepts) (message : Message) (cache : Cache) (s : σ) :
    ({ map with rules := rules }.evaluate write message cache s).1 =
        (map.evaluate write message cache s).1 ∧
      ({ map with rules := rules }.evaluate write message cache s).2.1 =
        (map.evaluate write message cache s).2.1 ∧
      (({ map with rules := rules }.asked write message cache s).filter Written.succeeded).Perm
        ((map.asked write message cache s).filter Written.succeeded) ∧
      ∃ trials direct,
        map.asked write message cache s = trials.map Trial.written ++ direct.toList ∧
        (∀ trial ∈ trials, trial.IsDue map (map.hold message cache)) ∧
        (consumed trials).Nodup ∧
        (∀ source, source ∈ consumed trials ↔
          map.Delivers accepts (map.hold message cache) source) ∧
        map.IsDirect message direct := by
  obtain ⟨trials, direct, round, hdirect, houtcome, hasked, hmem, hanswer⟩ :=
    evaluate_delivers apart steady message cache s
  obtain ⟨trials', direct', round', hdirect', houtcome', hasked', hmem', hanswer'⟩ :=
    evaluate_delivers (isApart_perm perm apart) steady message cache s
  simp only [hold_perm perm, delivers_perm perm] at round' hmem'
  -- the same sources leave the cache, and none of them twice
  have hconsumed : (consumed trials').Perm (consumed trials) := by
    apply (List.perm_ext_iff_of_nodup round'.consumed_nodup round.consumed_nodup).2
    intro source
    rw [hmem, hmem']
  have hsame : direct' = direct :=
    ((isDirect_perm perm).1 hdirect').unique hdirect hanswer' hanswer
  refine ⟨?_, ?_, ?_, trials, direct, hasked, round.due, round.consumed_nodup, hmem, hdirect⟩
  · rw [houtcome, houtcome', participates_perm perm, hconsumed.length_eq, hsame]
  · rw [round.final_eq, round'.final_eq]
    apply Cache.ext_get?
    intro address
    rw [Cache.get?_without, Cache.get?_without]
    simp only [hconsumed.mem_iff]
  · rw [hasked, hasked', List.filter_append, List.filter_append, round.filter_succeeded,
      round'.filter_succeeded, hsame]
    exact (hconsumed.filterMap _).append_right _

/-- Two rules on one source, whose bits are no sources. -/
def contest : WriteMap := { relay with rules := relay.rules.take 2 }

/-- The same rules, the last one first. -/
def reversedContest : WriteMap := { contest with rules := contest.rules.reverse }

/-- A writer that writes nothing but 42, and counts what it is asked for. -/
def picky : Writer Nat := fun _ value asked => (value == .uint 42, asked + 1)

/-- Whichever of the two rules is tried first, 42 is written once. -/
theorem evaluate_perm_contest :
    contest.rules.Perm contest.rules.reverse ∧ contest.IsApart ∧
    picky.IsSteady (fun _ value => value == .uint 42) ∧
    (contest.evaluate picky ⟨"D71", .unsigned 42, "Line1"⟩ armed 0).1 =
      { cached := true, conditionalWrites := 1 } ∧
    (reversedContest.evaluate picky ⟨"D71", .unsigned 42, "Line1"⟩ armed 0).1 =
      (contest.evaluate picky ⟨"D71", .unsigned 42, "Line1"⟩ armed 0).1 ∧
    (reversedContest.evaluate picky ⟨"D71", .unsigned 42, "Line1"⟩ armed 0).2.1 =
      (contest.evaluate picky ⟨"D71", .unsigned 42, "Line1"⟩ armed 0).2.1 ∧
    ((reversedContest.asked picky ⟨"D71", .unsigned 42, "Line1"⟩ armed 0).filter
        Written.succeeded).Perm
      ((contest.asked picky ⟨"D71", .unsigned 42, "Line1"⟩ armed 0).filter
        Written.succeeded) := by
  have perm : contest.rules.Perm contest.rules.reverse := (List.reverse_perm _).symm
  have apart : contest.IsApart := by
    unfold IsApart
    decide
  have steady : picky.IsSteady fun _ value => value == .uint 42 := fun _ _ _ => rfl
  have same := evaluate_perm perm apart steady ⟨"D71", .unsigned 42, "Line1"⟩ armed 0
  exact ⟨perm, apart, steady, by decide, same.1, same.2.1, same.2.2.1⟩

end WriteMap

end PlcGateway
