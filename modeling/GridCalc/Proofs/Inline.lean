import GridCalc.Proofs.Correspondence
import GridCalc.Proofs.Failing
import GridCalc.Text.Lines

/-!
# Texts within a field

A text that is read from a field of a line has neither a bar nor a line break in it. What a fault
quotes is part of such a text, or the name of a position or of a function, and the words around it
are plain, so its message is such a text, too. A formula fails of itself with no other faults if
the names in it and those of the known functions are such texts.
-/

set_option autoImplicit false

namespace GridCalc
open Text

def Inline (cs : List Char) : Prop := ∀ c ∈ cs, c ≠ '|' ∧ isLineBreak c = false

/-- The letters, digits and signs of the words that messages are made of. -/
def isPlainText (c : Char) : Bool := decide (32 ≤ c.toNat) && decide (c.toNat < 124)

section

variable {cs ds : List Char} {c : Char}

theorem inline_append : Inline (cs ++ ds) ↔ Inline cs ∧ Inline ds := List.forall_mem_append

theorem Inline.subset (h : Inline cs) (hds : ds ⊆ cs) : Inline ds := fun c hc => h c (hds hc)

theorem isPlainText_iff : isPlainText c ↔ 32 ≤ c.toNat ∧ c.toNat < 124 := by
  rw [isPlainText, Bool.and_eq_true, decide_eq_true_iff, decide_eq_true_iff]

theorem isPlainText_of_isPlainDigit (h : isPlainDigit c) : isPlainText c := by
  obtain ⟨hlow, hhigh⟩ := toNat_of_isPlainDigit h
  exact isPlainText_iff.2 ⟨by omega, by omega⟩

theorem inline_of_isPlainText (h : ∀ c ∈ cs, isPlainText c) : Inline cs := by
  intro c hc
  obtain ⟨hlow, hhigh⟩ := isPlainText_iff.1 (h c hc)
  refine ⟨?_, ?_⟩
  · rintro rfl
    exact absurd hhigh (by decide)
  · rw [isLineBreak, lineBreaks, ← Bool.not_eq_true, List.contains_iff_mem]
    simp only [List.mem_cons, List.not_mem_nil, or_false]
    omega

theorem inline_plain {s : String} (hs : s = String.ofList cs) (h : cs.all isPlainText = true) :
    Inline s.toList := by
  rw [hs, String.toList_ofList]
  exact inline_of_isPlainText (List.all_eq_true.1 h)

theorem isPlainText_of_mem_repr {n : ℤ} (h : c ∈ n.repr.toList) : isPlainText c := by
  obtain rfl | hdigit := mem_repr h
  · decide
  · exact isPlainText_of_isPlainDigit hdigit

end

/-- A fault that quotes nothing but texts within a field. -/
def Fault.Inline (f : Fault) : Prop := ∀ quoted ∈ f.quotes, GridCalc.Inline quoted

theorem TokenKind.inline_label (kind : TokenKind) : Inline kind.label.toList := by
  cases kind <;> exact inline_plain rfl rfl

theorem NumberFault.inline_message (fault : NumberFault) : Inline fault.message.toList := by
  cases fault <;> exact inline_plain rfl rfl

/-- The message of such a fault is itself a text within a field. -/
theorem Fault.Inline.message {f : Fault} (h : f.Inline) : GridCalc.Inline f.message.toList := by
  have hnat : ∀ n : ℕ, GridCalc.Inline (toString n).toList := fun n =>
    inline_of_isPlainText fun _ => isPlainText_of_mem_repr (n := n)
  have hstring : ∀ s : String, toString s = s := fun _ => rfl
  have hchar : ∀ c : Char, (toString c).toList = [c] := fun c => by
    show (String.singleton c).toList = [c]
    exact String.toList_singleton c
  unfold Fault.message
  split
  all_goals try simp only [String.toList_append, inline_append, hnat, hstring, hchar,
    TokenKind.inline_label, NumberFault.inline_message, and_true]
  all_goals and_intros
  -- what is left are the words, and the texts that are quoted
  all_goals first
    | exact inline_plain rfl rfl
    | exact h _ (.head _)
    | exact h _ (.tail _ (.head _))

theorem Position.inline_name {p : Position} {name : String} (h : p.name = .ok name) :
    Inline name.toList := by
  have hletter : ∀ d < 26, isPlainText (columnLetter d) := by decide
  obtain hinside | houtside := named_cases h
  · rw [hinside.name] at h
    obtain rfl := Except.ok.inj h
    rw [String.toList_ofList]
    refine inline_of_isPlainText fun c hc => ?_
    obtain hc | hc := List.mem_append.1 hc
    · obtain ⟨d, hd, rfl⟩ := columnLetters_mem hc
      exact hletter d hd
    · exact isPlainText_of_isPlainDigit (isPlainDigit_of_mem hc)
  · rw [houtside.name] at h
    obtain rfl := Except.ok.inj h
    rw [String.toList_ofList]
    refine inline_of_isPlainText fun c hc => ?_
    rw [outsideName, List.mem_cons, List.mem_append, List.mem_cons] at hc
    obtain rfl | hrow | rfl | hcolumn := hc
    · decide
    · exact isPlainText_of_mem_repr hrow
    · decide
    · exact isPlainText_of_mem_repr hcolumn

theorem Region.inline_name {r : Region} {name : String} (h : r.name = .ok name) :
    Inline name.toList := by
  unfold Region.name at h
  obtain ⟨start, hstart, h⟩ := ok_of_bind h
  obtain ⟨finish, hfinish, h⟩ := ok_of_bind h
  obtain rfl := Except.ok.inj h
  simp only [String.toList_append, inline_append]
  exact ⟨⟨Position.inline_name hstart, inline_plain rfl rfl⟩, Position.inline_name hfinish⟩

def Functions.Inline (fs : Functions) : Prop :=
  ∀ f ∈ fs, GridCalc.Inline f.name.toList ∧ GridCalc.Inline (upper f.name).toList

theorem Functions.inline_builtin : Functions.Inline .builtin := by
  have hall : ∀ f ∈ builtin, f.name.toList.all isPlainText = true ∧
      (upper f.name).toList.all isPlainText = true := by decide +kernel
  exact fun f hf => ⟨inline_of_isPlainText (List.all_eq_true.1 (hall f hf).1),
    inline_of_isPlainText (List.all_eq_true.1 (hall f hf).2)⟩

def Arena.Inline (a : Arena) : Prop :=
  ∀ id name arguments, a.node? id = some (.call name arguments) → GridCalc.Inline name.toList

theorem Fault.inline_of_quotes {f : Fault} (h : f.quotes = []) : f.Inline := by
  simp [Inline, h]

theorem Fault.inline_of_quote {f : Fault} {cs : List Char} (h : f.quotes = [cs])
    (hcs : GridCalc.Inline cs) : f.Inline := by
  rw [Inline, h]
  exact List.forall_mem_singleton.2 hcs

theorem Fault.Arises.inline {functions : Functions} {a : Arena} {f : Fault}
    (h : f.Arises functions a) (hfunctions : functions.Inline) (ha : a.Inline) : f.Inline := by
  cases h with
  | computed hmem =>
    simp only [List.mem_cons, List.not_mem_nil, or_false] at hmem
    obtain rfl | rfl | rfl := hmem
    all_goals exact inline_of_quotes rfl
  | textOperand | separatorOperand => exact inline_of_quotes rfl
  | unsettled hname => exact inline_of_quote rfl (Position.inline_name hname)
  | regionOutside hname => exact inline_of_quote rfl (Region.inline_name hname)
  | @unknownFunction id name arguments f hn hfind =>
    obtain ⟨other, rfl, hother⟩ := Functions.find_error hfind
    have hname := ha id name arguments hn
    cases other with
    | none => exact inline_of_quote rfl hname
    | some other =>
      obtain ⟨g, hg, rfl⟩ := hother other rfl
      exact List.forall_mem_cons.2 ⟨hname, List.forall_mem_singleton.2 (hfunctions g hg).1⟩
  | argumentCount _ hf | rangeWanted _ hf | rangeUnwanted _ hf =>
    exact inline_of_quote rfl (hfunctions _ hf).2

end GridCalc
