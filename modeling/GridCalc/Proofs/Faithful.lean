import GridCalc.Proofs.Advance
import GridCalc.Proofs.Dependence

/-!
# Faithful tables

What a table that is being evaluated has to do with the table as it was written. Every content
that is done is the answer of its cell's inquiry by contents that were done before, or else the
fault of a loop at a cell that has come back to itself; and every cell that is not done still has
all of its inquiry before it. The order in which cells have been settled is a rank. Each of the
three ways to change a cell that is not done keeps a table faithful.
-/

set_option autoImplicit false

namespace GridCalc.Grid
open Inquiry

def known (g : Grid) : Knowledge := fun p =>
  if g.phase p = .done then some (g.content p) else none

/-- The contents that are done and of a rank below `n`. -/
def knownBefore (g : Grid) (rank : Position → Nat) (n : Nat) : Knowledge := fun p =>
  if g.phase p = .done ∧ rank p < n then some (g.content p) else none

/-- With what is done by now, the inquiry of `p` comes to look at `q`. -/
def Reads (start : Grid) (functions : Functions) (g : Grid) (p q : Position) : Prop :=
  ∃ next, Leads g.known (start.inquiry functions p) (.look q next)

/-- Why the content of a cell that is done is what it is. -/
inductive Settled (start : Grid) (functions : Functions) (g : Grid) (rank : Position → Nat)
    (p : Position) : Prop
  | answered : Leads (g.knownBefore rank (rank p)) (start.inquiry functions p)
      (.done (.ok (g.content p))) → Settled start functions g rank p
  | looped : g.content p = .error .loop →
      Relation.TransGen (Reads start functions g) p p → Settled start functions g rank p

def Looped (start : Grid) (functions : Functions) (g : Grid) (p : Position) : Prop :=
  g.content p = .error .loop ∧ Relation.TransGen (Reads start functions g) p p

structure Faithful (start : Grid) (functions : Functions) (g : Grid) : Prop where
  alike : start.Alike g
  settled : ∃ (rank : Position → Nat) (bound : Nat), ∀ p, g.phase p = .done →
    rank p < bound ∧ Settled start functions g rank p
  waiting : ∀ p, g.phase p ≠ .done →
    Leads g.known (start.inquiry functions p) ((g.content p).inquiry start functions p)

section

variable {g h : Grid} {rank : Position → Nat} {n : Nat} {p q : Position} {c : Content}

theorem known_eq_some : g.known p = some c ↔ g.phase p = .done ∧ g.content p = c := by
  unfold known
  split
  · next hp => simp [hp]
  · next hp => simp [hp]

theorem known_of_done (hp : g.phase p = .done) : g.known p = some (g.content p) :=
  known_eq_some.2 ⟨hp, rfl⟩

theorem knownBefore_eq_some : g.knownBefore rank n p = some c ↔
    g.phase p = .done ∧ rank p < n ∧ g.content p = c := by
  unfold knownBefore
  split
  · next hp => simp [hp]
  · next hp =>
    simp only [reduceCtorEq, false_iff]
    rintro ⟨hd, hr, _⟩
    exact hp ⟨hd, hr⟩

theorem knownBefore_within : (g.knownBefore rank n).Within g.known := by
  intro p c h
  obtain ⟨hp, _, hc⟩ := knownBefore_eq_some.1 h
  exact known_eq_some.2 ⟨hp, hc⟩

theorem Advance.known_within (ha : g.Advance h) : g.known.Within h.known := by
  intro p c hc
  obtain ⟨hp, rfl⟩ := known_eq_some.1 hc
  exact known_eq_some.2 ⟨ha.phase_done hp, by rw [content, ha.done p hp, content]⟩

variable {start : Grid} {functions : Functions}

theorem Reads.mono (hk : g.known.Within h.known) (hr : Reads start functions g p q) :
    Reads start functions h p q := by
  obtain ⟨next, hl⟩ := hr
  exact ⟨next, hl.mono hk⟩

theorem reads_trans_mono (hk : g.known.Within h.known)
    (hr : Relation.TransGen (Reads start functions g) p q) :
    Relation.TransGen (Reads start functions h) p q :=
  Relation.TransGen.mono (fun _ _ => Reads.mono hk) p q hr

theorem reads_reflTrans_mono (hk : g.known.Within h.known)
    (hr : Relation.ReflTransGen (Reads start functions g) p q) :
    Relation.ReflTransGen (Reads start functions h) p q :=
  Relation.ReflTransGen.mono (fun _ _ => Reads.mono hk) p q hr

end

section

variable {start g : Grid} {functions : Functions} {p : Position} {c : Cell}

theorem known_within_set (hp : g.phase p ≠ .done) : g.known.Within (g.set p c).known := by
  intro q d hq
  obtain ⟨hd, rfl⟩ := known_eq_some.1 hq
  have hqp : q ≠ p := by
    rintro rfl
    exact hp hd
  exact known_eq_some.2 ⟨(phase_set_ne hqp).trans hd, content_set_ne hqp⟩

theorem known_within_released (p : Position) : g.known.Within (g.released p).known := by
  unfold Grid.released
  split
  · next hp => exact known_within_set (by simp [hp])
  · exact fun _ _ hx => hx

theorem Settled.set {rank rank' : Position → Nat} {q : Position} (hp : g.phase p ≠ .done)
    (hrank : ∀ x, x ≠ p → rank' x = rank x) (hqp : q ≠ p)
    (hq : Settled start functions g rank q) :
    Settled start functions (g.set p c) rank' q := by
  have hcontent : (g.set p c).content q = g.content q := content_set_ne hqp
  cases hq with
  | answered hl =>
    refine .answered ?_
    rw [hcontent, hrank q hqp]
    apply hl.mono
    intro x d hx
    obtain ⟨hd, hr, rfl⟩ := knownBefore_eq_some.1 hx
    have hxp : x ≠ p := by
      rintro rfl
      exact hp hd
    exact knownBefore_eq_some.2
      ⟨(phase_set_ne hxp).trans hd, by rwa [hrank x hxp], content_set_ne hxp⟩
  | looped he hl =>
    exact .looped (hcontent.trans he) (reads_trans_mono (known_within_set hp) hl)

/-- A cell that has not become the fault of a loop by itself has answered its inquiry. -/
theorem Faithful.leads_of_not_looped (hg : Faithful start functions g) (hp : g.phase p = .done)
    (hnot : ¬ Looped start functions g p) :
    ∃ rank : Position → Nat, Leads (g.knownBefore rank (rank p)) (start.inquiry functions p)
      (.done (.ok (g.content p))) := by
  obtain ⟨rank, _, hs⟩ := hg.settled
  cases (hs p hp).2 with
  | looped he hloop => exact absurd ⟨he, hloop⟩ hnot
  | answered hl => exact ⟨rank, hl⟩

theorem Faithful.waiting_set (hg : Faithful start functions g) (hp : g.phase p ≠ .done)
    {q : Position} (hqp : q ≠ p) (hq : (g.set p c).phase q ≠ .done) :
    Leads (g.set p c).known (start.inquiry functions q)
      (((g.set p c).content q).inquiry start functions q) := by
  rw [phase_set_ne hqp] at hq
  rw [content_set_ne hqp]
  exact (hg.waiting q hq).mono (known_within_set hp)

theorem Faithful.set_waiting (hg : Faithful start functions g) (hp : g.phase p ≠ .done)
    (hc : c.phase ≠ .done)
    (hl : Leads g.known (start.inquiry functions p) (c.content.inquiry start functions p)) :
    Faithful start functions (g.set p c) := by
  have hin := contains_of_phase hp
  obtain ⟨rank, bound, hs⟩ := hg.settled
  refine ⟨hg.alike.trans (alike_set g p c), ⟨rank, bound, fun q hq => ?_⟩, fun q hq => ?_⟩
  · have hqp : q ≠ p := by
      rintro rfl
      rw [phase_set_self hin] at hq
      exact hc hq
    rw [phase_set_ne hqp] at hq
    obtain ⟨hb, hsettled⟩ := hs q hq
    exact ⟨hb, hsettled.set hp (fun _ _ => rfl) hqp⟩
  · by_cases hqp : q = p
    · subst hqp
      rw [content_set_self hin]
      exact hl.mono (known_within_set hp)
    · exact hg.waiting_set hp hqp hq

theorem Faithful.set_done (hg : Faithful start functions g) (hp : g.phase p ≠ .done)
    (hc : c.phase = .done)
    (hl : Leads g.known (start.inquiry functions p) (.done (.ok c.content)) ∨
      c.content = .error .loop ∧ Relation.TransGen (Reads start functions g) p p) :
    Faithful start functions (g.set p c) := by
  -- The rank of the cell is above all ranks so far.
  have hin := contains_of_phase hp
  have hcontent : (g.set p c).content p = c.content := content_set_self hin
  obtain ⟨rank, bound, hs⟩ := hg.settled
  let rank' : Position → Nat := fun x => if x = p then bound else rank x
  have hself : rank' p = bound := if_pos rfl
  have hother : ∀ x, x ≠ p → rank' x = rank x := fun x hx => if_neg hx
  refine ⟨hg.alike.trans (alike_set g p c), ⟨rank', bound + 1, fun q hq => ?_⟩, fun q hq => ?_⟩
  · by_cases hqp : q = p
    · subst hqp
      refine ⟨by omega, ?_⟩
      rcases hl with hl | ⟨he, hr⟩
      · refine .answered ?_
        rw [hcontent, hself]
        apply hl.mono
        intro x d hx
        obtain ⟨hd, rfl⟩ := known_eq_some.1 hx
        have hxp : x ≠ q := by
          rintro rfl
          exact hp hd
        refine knownBefore_eq_some.2 ⟨(phase_set_ne hxp).trans hd, ?_, content_set_ne hxp⟩
        rw [hother x hxp]
        exact (hs x hd).1
      · exact .looped (hcontent.trans he) (reads_trans_mono (known_within_set hp) hr)
    · rw [phase_set_ne hqp] at hq
      obtain ⟨hb, hsettled⟩ := hs q hq
      refine ⟨?_, hsettled.set hp hother hqp⟩
      rw [hother q hqp]
      omega
  · by_cases hqp : q = p
    · subst hqp
      rw [phase_set_self hin] at hq
      exact absurd hc hq
    · exact hg.waiting_set hp hqp hq

theorem Faithful.marked (hg : Faithful start functions g) (hp : g.phase p = .pending) :
    Faithful start functions (g.marked p) :=
  hg.set_waiting (by simp [hp]) (by simp) (hg.waiting p (by simp [hp]))

theorem Faithful.released (hg : Faithful start functions g) (p : Position) :
    Faithful start functions (g.released p) := by
  unfold Grid.released
  split
  · next hp => exact hg.set_waiting (by simp [hp]) (by simp) (hg.waiting p (by simp [hp]))
  · exact hg

theorem Faithful.finished (hg : Faithful start functions g) {d : Content}
    (hl : Leads g.known (start.inquiry functions p) (.done (.ok d))) :
    Faithful start functions (g.finished p ⟨d, .done⟩) := by
  unfold Grid.finished
  split
  · next hp => exact hg.set_done (by simp [hp]) rfl (.inl hl)
  · exact hg

theorem Faithful.set_loop (hg : Faithful start functions g) (hp : g.phase p ≠ .done)
    (hr : Relation.TransGen (Reads start functions g) p p) :
    Faithful start functions (g.set p (.ofFault .loop)) :=
  hg.set_done hp rfl (.inr ⟨rfl, hr⟩)

end

end GridCalc.Grid
