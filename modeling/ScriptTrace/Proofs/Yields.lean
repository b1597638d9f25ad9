import ScriptTrace.Run.Loop
/-!
# What acts yield

An act **yields** a property under an invariant if, from a state that has the invariant, it passes through states that
have it only, and the result it ends with, if it ends with one, has the property. A fault has nothing to show but the
state it leaves.

There is one lemma for each way of putting acts together, and for the rounds of a loop.
-/
namespace ScriptTrace

/-- Whether the act keeps the invariant `I` in all states it passes through, and its results have the property `R`. -/
def Act.Yields {σ α : Type} (I : σ → Prop) (x : Act σ α) (R : α → Prop) : Prop :=
  ∀ s, I s → (∀ t, x.passes s t → I t) ∧ ∀ a, (x.exec s).1 = .ok a → R a

namespace Act.Yields

variable {σ α β : Type} {I : σ → Prop} {x : Act σ α} {Q : α → Prop} {R : β → Prop} {s t : σ}

theorem result (h : x.Yields I Q) (hs : I s) {a : α} (he : x.exec s = (.ok a, t)) : Q a :=
  (h s hs).2 a (congrArg Prod.fst he)

theorem last (h : x.Yields I Q) (hs : I s) : I (x.exec s).2 :=
  (h s hs).1 _ (x.passes_last s)

theorem done {outcome : Except Fault α} (h : ∀ a, outcome = .ok a → Q a) : (done outcome : Act σ α).Yields I Q := by
  refine fun s hs => ⟨fun t ht => ?_, h⟩
  obtain rfl : t = s := ht
  exact hs

theorem pure {a : α} (h : Q a) : (pure a : Act σ α).Yields I Q :=
  done fun b hb => by
    cases hb
    exact h

theorem throw (fault : Fault) : (throw fault : Act σ α).Yields I Q :=
  done fun a ha => by cases ha

theorem update {f : σ → α × σ} (h : ∀ s, I s → I (f s).2 ∧ Q (f s).1) : (update f : Act σ α).Yields I Q := by
  refine fun s hs => ⟨fun t ht => ?_, fun a ha => ?_⟩
  · rcases ht with rfl | rfl
    · exact hs
    · exact (h s hs).1
  · cases ha
    exact (h s hs).2

theorem modifyGet {f : σ → α × σ} (h : ∀ s, I s → I (f s).2 ∧ Q (f s).1) : (modifyGet f : Act σ α).Yields I Q :=
  update h

theorem set (h : I t) : (set t : Act σ PUnit).Yields I fun _ => True :=
  update fun _ _ => ⟨h, trivial⟩

theorem modify {f : σ → σ} (h : ∀ s, I s → I (f s)) : (modify f : Act σ PUnit).Yields I fun _ => True :=
  update fun s hs => ⟨h s hs, trivial⟩

theorem follow {next : Except Fault α → Act σ β} (hx : x.Yields I Q) (hok : ∀ a, Q a → (next (.ok a)).Yields I R)
    (herror : ∀ fault, (next (.error fault)).Yields I R) : (x.follow next).Yields I R := by
  intro s hs
  have after : (next (x.exec s).1).Yields I R := by
    cases ho : (x.exec s).1 with
    | ok a => exact hok a ((hx s hs).2 a ho)
    | error fault => exact herror fault
  refine ⟨fun t ht => ?_, (after _ (hx.last hs)).2⟩
  rcases ht with ht | ht
  · exact (hx s hs).1 t ht
  · exact (after _ (hx.last hs)).1 t ht

theorem bind {f : α → Act σ β} (hx : x.Yields I Q) (hf : ∀ a, Q a → (f a).Yields I R) : (x >>= f).Yields I R :=
  hx.follow hf fun _ => throw _

/-- What follows a look at the state may rest on the invariant. -/
theorem get {f : σ → Act σ β} (hf : ∀ s, I s → (f s).Yields I R) : (MonadState.get >>= f : Act σ β).Yields I R := by
  have look : (MonadState.get : Act σ σ).Yields I I := update fun _ hs => ⟨hs, hs⟩
  exact look.bind hf

theorem ite {c : Prop} [Decidable c] {y : Act σ α} (hx : x.Yields I Q) (hy : y.Yields I Q) :
    (if c then x else y).Yields I Q := by
  split
  · exact hx
  · exact hy

theorem handle {handler : Fault → Option (Act σ α)} (hx : x.Yields I Q)
    (hh : ∀ fault, ∀ y ∈ handler fault, y.Yields I Q) : (x.handle handler).Yields I Q := by
  refine hx.follow (fun _ ha => pure ha) fun fault => ?_
  dsimp only
  cases hy : handler fault with
  | none => exact throw _
  | some y => exact hh fault y hy

theorem ensuring {cleanup : Act σ Unit} {U : Unit → Prop} (hx : x.Yields I Q) (hc : cleanup.Yields I U) :
    (x.ensuring cleanup).Yields I Q :=
  hx.follow (fun _ ha => hc.bind fun _ _ => pure ha) fun _ => hc.bind fun _ _ => throw _

theorem bracket {enter : σ → σ} {leave : σ → σ → σ} (hx : x.Yields I Q) (henter : ∀ s, I s → I (enter s))
    (hleave : ∀ s t, I s → I t → I (leave s t)) : (bracket enter x leave).Yields I Q :=
  get fun outer ho => (set (henter outer ho)).bind fun _ _ =>
    hx.ensuring (modify fun t ht => hleave outer t ho ht)

theorem discard (hx : x.Yields I Q) : (discard x).Yields I fun _ => True :=
  hx.bind fun _ _ => pure trivial

theorem forM {γ : Type} {f : γ → Act σ PUnit} {U : PUnit → Prop} : ∀ {l : List γ}, (∀ c ∈ l, (f c).Yields I U) →
    (l.forM f).Yields I fun _ => True
  | [], _ => pure trivial
  | _ :: _, h => by
    obtain ⟨hc, hl⟩ := List.forall_mem_cons.1 h
    exact hc.bind fun _ _ => forM hl

end Act.Yields

/-- An operation yields as a part of a run what it yields on its own. -/
theorem Act.Yields.asRun {α : Type} {J : Memory → Prop} {x : Op α} {Q : α → Prop} (h : x.Yields J Q) :
    x.asRun.Yields (fun s => J s.toMemory) Q := by
  refine fun s hs => ⟨fun t ht => ?_, (h s.toMemory hs).2⟩
  obtain ⟨p, hp | rfl, rfl⟩ := ht
  · exact (h s.toMemory hs).1 p.1 hp.1
  · exact h.last hs

/-! ## Rounds of a loop -/

/-- The signal that a loop has finished with, if it was not stopped. -/
def Ending.Has (R : Signal → Prop) : Ending → Prop
  | .finished s => R s
  | .stopped _ => True

namespace Act.Yields

variable {I : State → Prop} {R : Signal → Prop} {U : Unit → Prop} {B : Bool → Prop} {O : Option Trip → Prop}
  {cfg : Config} {label : Option Text} {start : Float} {test : Run Bool} {body : Run Signal} {after : Signal → Run Unit}
  (hoverrun : (overrun? cfg start).Yields I O) (hcount : countRound.Yields I U)
  (htest : test.Yields I B) (hbody : body.Yields I R) (hafter : ∀ s, (after s).Yields I U)
  (hnormal : R .normal) (hsettle : ∀ s, R s → R (s.settle label))

include hoverrun hcount hbody hsettle

theorem once : (Rounds.once ⟨cfg, label, start, test, body, after⟩).Yields I
    fun end? => ∀ ending, end? = .inl ending → ending.Has R := by
  refine hoverrun.bind fun trip _ => ?_
  cases trip with
  | some trip =>
    refine pure fun ending he => ?_
    cases he
    trivial
  | none =>
    refine hcount.bind fun _ _ => hbody.bind fun s hs => ite (pure fun ending he => ?_) (pure fun ending he => ?_)
    · cases he
      exact hsettle s hs
    · cases he

include htest hnormal

theorem bodyFirst : ∀ left done, (Rounds.bodyFirst ⟨cfg, label, start, test, body, after⟩ left done).Yields I
    fun r => r.1.Has R
  | 0, _ => pure trivial
  | left + 1, done => by
    refine (once hoverrun hcount hbody hsettle).bind fun end? he => ?_
    cases end? with
    | inl ending => exact pure (he ending rfl)
    | inr s => exact htest.bind fun _ _ => ite (bodyFirst left _) (pure hnormal)

include hafter

theorem testFirst : ∀ left done, (Rounds.testFirst ⟨cfg, label, start, test, body, after⟩ left done).Yields I
    fun r => r.1.Has R
  | 0, _ => htest.bind fun _ _ => ite (pure trivial) (pure hnormal)
  | left + 1, done => by
    refine htest.bind fun _ _ => ite ?_ (pure hnormal)
    refine (once hoverrun hcount hbody hsettle).bind fun end? he => ?_
    cases end? with
    | inl ending => exact pure (he ending rfl)
    | inr s => exact (hafter s).bind fun _ _ => testFirst left _

end Act.Yields

end ScriptTrace
