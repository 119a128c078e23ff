import GridCalc.Cell

/-!
# Inquiries

What a computation asks of a table, apart from how the table finds it out. An inquiry looks at the
contents of positions, one after another, and what it sees decides where it looks next; it ends
with a result or stops. Of phases, depths and events it knows nothing. With part of a table known,
an inquiry leads on to the first position that is not.
-/

set_option autoImplicit false

namespace GridCalc

inductive Inquiry (α : Type) where
  | done (r : Except Stop α)
  | look (p : Position) (next : Content → Inquiry α)

abbrev Knowledge := Position → Option Content

def Knowledge.Within (k l : Knowledge) : Prop := ∀ p c, k p = some c → l p = some c

open Classical in
noncomputable def Knowledge.on (k : Knowledge) (s : Position → Prop) : Knowledge := fun p =>
  if s p then k p else none

theorem Knowledge.on_eq_some {k : Knowledge} {s : Position → Prop} {p : Position} {c : Content} :
    k.on s p = some c ↔ s p ∧ k p = some c := by
  unfold on
  split
  · next hp => simp [hp]
  · next hp => simp [hp]

namespace Inquiry

variable {α β : Type}

def bind : Inquiry α → (α → Inquiry β) → Inquiry β
  | done (.ok a), f => f a
  | done (.error e), _ => done (.error e)
  | look p next, f => look p fun c => (next c).bind f

instance : Monad Inquiry where
  pure a := done (.ok a)
  bind := bind

def mapEnd (f : Except Stop α → Except Stop β) : Inquiry α → Inquiry β
  | done r => done (f r)
  | look p next => look p fun c => (next c).mapEnd f

def fault (f : Fault) : Inquiry α := done (.error (.fault f))

def ofBreakdown : Except Breakdown α → Inquiry α
  | .ok a => done (.ok a)
  | .error b => done (.error (.breakdown b))

/-- The inquiry goes on to another one by looks at what is known. -/
inductive Leads (k : Knowledge) : Inquiry α → Inquiry α → Prop
  | refl (q : Inquiry α) : Leads k q q
  | look {p : Position} {c : Content} {next : Content → Inquiry α} {q : Inquiry α} :
      k p = some c → Leads k (next c) q → Leads k (look p next) q

/-- Whatever it sees, the inquiry looks strictly or loosely at positions of two kinds. A strict look
at a fault ends the inquiry with that fault. -/
def Looks (strict loose : Position → Prop) : Inquiry α → Prop
  | done _ => True
  | look p next =>
    ((strict p ∧ ∀ f, next (.error f) = done (.error (.fault f))) ∨ loose p) ∧
      ∀ c, (next c).Looks strict loose

section

variable {k l : Knowledge} {q q' : Inquiry α}

theorem bind_assoc {γ : Type} (q : Inquiry α) (f : α → Inquiry β) (h : β → Inquiry γ) :
    (q >>= f) >>= h = q >>= fun a => f a >>= h := by
  induction q with
  | done r => cases r <;> rfl
  | look p next ih => exact congrArg (look p) (funext fun c => ih c)

theorem Leads.trans {q'' : Inquiry α} (h : Leads k q q') (h' : Leads k q' q'') :
    Leads k q q'' := by
  induction h with
  | refl => exact h'
  | look hp _ ih => exact .look hp (ih h')

theorem Leads.mono (hk : k.Within l) (h : Leads k q q') : Leads l q q' := by
  induction h with
  | refl => exact .refl _
  | look hp _ ih => exact .look (hk _ _ hp) ih

theorem leads_done {r : Except Stop α} (h : Leads k (done r) q) : q = done r := by
  cases h
  rfl

theorem leads_look {p : Position} {next : Content → Inquiry α} {r : Except Stop α}
    (h : Leads k (look p next) (done r)) : ∃ c, k p = some c ∧ Leads k (next c) (done r) := by
  cases h with
  | look hp h => exact ⟨_, hp, h⟩

theorem Leads.cut {r : Except Stop α} (h : Leads k q q') (hr : Leads k q (done r)) :
    Leads k q' (done r) := by
  induction h with
  | refl => exact hr
  | look hp _ ih =>
    obtain ⟨c, hc, hr⟩ := leads_look hr
    rw [hp] at hc
    cases hc
    exact ih hr

theorem Leads.on (h : Leads k q q') :
    Leads (k.on fun p => ∃ next, Leads k q (Inquiry.look p next)) q q' := by
  induction h with
  | refl => exact .refl _
  | @look p c next q' hp _ ih =>
    refine .look (Knowledge.on_eq_some.2 ⟨⟨next, .refl _⟩, hp⟩) (ih.mono fun x d hx => ?_)
    obtain ⟨⟨next', hl⟩, hd⟩ := Knowledge.on_eq_some.1 hx
    exact Knowledge.on_eq_some.2 ⟨⟨next', .look hp hl⟩, hd⟩

theorem leads_done_unique {r r' : Except Stop α} (h : Leads k q (done r))
    (h' : Leads k q (done r')) : r = r' := by
  have he := leads_done (h.cut h')
  simpa using he.symm

theorem Leads.mapEnd (f : Except Stop α → Except Stop β) (h : Leads k q q') :
    Leads k (q.mapEnd f) (q'.mapEnd f) := by
  induction h with
  | refl => exact .refl _
  | look hp _ ih => exact .look hp ih

theorem leads_mapEnd_done {f : Except Stop α → Except Stop β} {r : Except Stop β}
    (h : Leads k (q.mapEnd f) (done r)) : ∃ r', Leads k q (done r') ∧ f r' = r := by
  induction q with
  | done r' =>
    have he := leads_done h
    simp only [done.injEq] at he
    exact ⟨r', .refl _, he.symm⟩
  | look p next ih =>
    obtain ⟨c, hc, h⟩ := leads_look h
    obtain ⟨r', hr', hf⟩ := ih c h
    exact ⟨r', .look hc hr', hf⟩

theorem leads_mapEnd_look {f : Except Stop α → Except Stop β} {p : Position}
    {next : Content → Inquiry β} (h : Leads k (q.mapEnd f) (look p next)) :
    ∃ next', Leads k q (look p next') ∧ next = fun c => (next' c).mapEnd f := by
  induction q with
  | done r => exact absurd (leads_done h) (by simp)
  | look p' next' ih =>
    cases h with
    | refl => exact ⟨next', .refl _, rfl⟩
    | look hp h =>
      obtain ⟨m, hm, he⟩ := ih _ h
      exact ⟨m, .look hp hm, he⟩

theorem leads_bind_ok {f : α → Inquiry β} {b : β} (h : Leads k (q >>= f) (done (.ok b))) :
    ∃ a, Leads k q (done (.ok a)) ∧ Leads k (f a) (done (.ok b)) := by
  induction q with
  | done r =>
    cases r with
    | ok a => exact ⟨a, .refl _, h⟩
    | error e => exact absurd (leads_done h) (by simp)
  | look p next ih =>
    obtain ⟨c, hc, h⟩ := leads_look h
    obtain ⟨a, ha, hb⟩ := ih c h
    exact ⟨a, .look hc ha, hb⟩

/-- An end that is reached needs everything that lies before it: a look on the way to it, found
with less knowledge of the same table, is at a known position. -/
theorem known_of_leads {m : Knowledge} {p : Position} {next : Content → Inquiry α}
    {r : Except Stop α} (hl : l.Within m) (hk : k.Within m) (h : Leads l q (look p next))
    (hr : Leads k q (done r)) : ∃ c, k p = some c := by
  generalize hq : look p next = q' at h
  induction h with
  | refl =>
    subst hq
    obtain ⟨c, hc, _⟩ := leads_look hr
    exact ⟨c, hc⟩
  | look hp _ ih =>
    obtain ⟨d, hd, hr⟩ := leads_look hr
    have he := (hl _ _ hp).symm.trans (hk _ _ hd)
    cases he
    exact ih hr hq

end

section

variable {S L S' L' : Position → Prop} {q : Inquiry α}

theorem Looks.mono (hS : ∀ p, S p → S' p) (hL : ∀ p, L p → L' p) (h : q.Looks S L) :
    q.Looks S' L' := by
  induction q with
  | done => trivial
  | look p next ih =>
    exact ⟨h.1.imp (fun hs => ⟨hS p hs.1, hs.2⟩) (hL p), fun c => ih c (h.2 c)⟩

theorem Looks.bind {f : α → Inquiry β} (h : q.Looks S L) (hf : ∀ a, (f a).Looks S L) :
    (q >>= f).Looks S L := by
  induction q with
  | done r =>
    cases r with
    | ok a => exact hf a
    | error e => trivial
  | look p next ih =>
    refine ⟨h.1.imp (fun hs => ⟨hs.1, fun e => ?_⟩) id, fun c => ih c (h.2 c)⟩
    show (next (.error e)).bind f = _
    rw [hs.2 e]
    rfl

theorem Looks.of_leads {k : Knowledge} {p : Position} {next : Content → Inquiry α}
    (h : q.Looks S L) (hl : Leads k q (look p next)) :
    (S p ∧ ∀ f, next (.error f) = done (.error (.fault f))) ∨ L p := by
  generalize hq : look p next = q' at hl
  induction hl with
  | refl =>
    subst hq
    exact h.1
  | look _ _ ih => exact ih (h.2 _) hq

end

end Inquiry

end GridCalc
