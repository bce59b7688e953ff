import PlcGateway.WriteBack.Engine

/-!
# The engine and its writer

The engine evaluates messages one after another, over one cache and with one writer
(`evaluateAll`). It asks the writer for nothing but writes to targets of the map, so what every such
write keeps is kept by the whole run (`Writer.Keeps.evaluateAll`). And it looks at nothing but
whether a write succeeded, so a writer that also takes notes leads to the same run
(`Writer.Extends.evaluateAll`).
-/

namespace PlcGateway

/-- Evaluates messages one after another. -/
def WriteMap.evaluateAll {σ : Type} (map : WriteMap) (write : Writer σ) :
    List Message → Cache → σ → List Outcome × Cache × σ
  | [], cache, s => ([], cache, s)
  | message :: messages, cache, s =>
    let (outcome, cache, s) := map.evaluate write message cache s
    let (outcomes, cache, s) := map.evaluateAll write messages cache s
    (outcome :: outcomes, cache, s)

namespace Writer

/-- What every write to a target of the map leaves true. -/
def Keeps {σ : Type} (write : Writer σ) (map : WriteMap) (I : σ → Prop) : Prop :=
  ∀ address target value s, map.target? address = some target → I s → I (write target value s).2

/-- The writer succeeds where `write` does, and has the state of `write` in its own. -/
def Extends {σ τ : Type} (wide : Writer τ) (write : Writer σ) (forget : τ → σ) : Prop :=
  ∀ target value t, write target value (forget t) =
    ((wide target value t).1, forget (wide target value t).2)

variable {σ τ : Type} {map : WriteMap} {write : Writer σ}

/-! ## What writes keep -/

section Keeps

variable {I : σ → Prop} {s : σ}

theorem Keeps.fire (keeps : write.Keeps map I) (h : I s) (rule : Rule) (cache : Cache) :
    I (map.fire write rule cache s).2.2 := by
  unfold WriteMap.fire Cache.take
  split
  · cases htarget : map.target? rule.source with
    | none => exact h
    | some target =>
      cases cache.get? rule.source with
      | none => exact h
      | some value =>
        have hwrite := keeps rule.source target value.toWrite s htarget h
        rcases hresult : write target value.toWrite s with ⟨_ | _, s'⟩
        · rw [hresult] at hwrite
          simpa only [hresult] using hwrite
        · rw [hresult] at hwrite
          simpa only [hresult] using hwrite
  · exact h

theorem Keeps.fireAll (keeps : write.Keeps map I) (h : I s) (rules : List Rule) (cache : Cache) :
    I (map.fireAll write rules cache s).2.2 := by
  induction rules generalizing cache s with
  | nil => exact h
  | cons rule rules ih => exact ih (keeps.fire h rule cache) _

theorem Keeps.writeMapped (keeps : write.Keeps map I) (h : I s) (message : Message) :
    I (map.writeMapped write message s).2 := by
  unfold WriteMap.writeMapped
  cases htarget : map.target? message.address with
  | none => exact h
  | some target =>
    simp only
    split
    · exact keeps message.address target message.value.toWrite s htarget h
    · exact h

theorem Keeps.evaluate (keeps : write.Keeps map I) (h : I s) (message : Message) (cache : Cache) :
    I (map.evaluate write message cache s).2.2 := by
  unfold WriteMap.evaluate
  split
  · exact keeps.fireAll h map.rules _
  · exact keeps.writeMapped (keeps.fireAll h map.rules cache) message

theorem Keeps.evaluateAll (keeps : write.Keeps map I) (h : I s) (messages : List Message)
    (cache : Cache) : I (map.evaluateAll write messages cache s).2.2 := by
  induction messages generalizing cache s with
  | nil => exact h
  | cons message messages ih => exact ih (keeps.evaluate h message cache) _

end Keeps

/-! ## What notes do not change -/

section Extends

variable {wide : Writer τ} {forget : τ → σ}

theorem Extends.fire (extend : wide.Extends write forget) (rule : Rule) (cache : Cache) (t : τ) :
    map.fire write rule cache (forget t) =
      let fired := map.fire wide rule cache t
      (fired.1, fired.2.1, forget fired.2.2) := by
  unfold WriteMap.fire Cache.take
  split
  · cases map.target? rule.source with
    | none => rfl
    | some target =>
      cases cache.get? rule.source with
      | none => rfl
      | some value =>
        simp only [extend target value.toWrite t]
        rcases wide target value.toWrite t with ⟨_ | _, t'⟩
        · rfl
        · rfl
  · rfl

theorem Extends.fireAll (extend : wide.Extends write forget) (rules : List Rule) (cache : Cache)
    (t : τ) : map.fireAll write rules cache (forget t) =
      let fired := map.fireAll wide rules cache t
      (fired.1, fired.2.1, forget fired.2.2) := by
  induction rules generalizing cache t with
  | nil => rfl
  | cons rule rules ih => simp only [WriteMap.fireAll, extend.fire, ih]

theorem Extends.writeMapped (extend : wide.Extends write forget) (message : Message) (t : τ) :
    map.writeMapped write message (forget t) =
      let written := map.writeMapped wide message t
      (written.1, forget written.2) := by
  unfold WriteMap.writeMapped
  cases map.target? message.address with
  | none => rfl
  | some target =>
    simp only
    split
    · exact extend target message.value.toWrite t
    · rfl

theorem Extends.evaluate (extend : wide.Extends write forget) (message : Message) (cache : Cache)
    (t : τ) : map.evaluate write message cache (forget t) =
      let evaluated := map.evaluate wide message cache t
      (evaluated.1, evaluated.2.1, forget evaluated.2.2) := by
  unfold WriteMap.evaluate
  split
  · simp only [extend.fireAll]
  · simp only [extend.fireAll, extend.writeMapped]

theorem Extends.evaluateAll (extend : wide.Extends write forget) (messages : List Message)
    (cache : Cache) (t : τ) : map.evaluateAll write messages cache (forget t) =
      let evaluated := map.evaluateAll wide messages cache t
      (evaluated.1, evaluated.2.1, forget evaluated.2.2) := by
  induction messages generalizing cache t with
  | nil => rfl
  | cons message messages ih => simp only [WriteMap.evaluateAll, extend.evaluate, ih]

end Extends

end Writer

end PlcGateway
