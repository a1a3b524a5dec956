/-
  Readers of texts that say where they end: a text that is written for a value is read back
  whatever follows it, and no strict prefix of it is read (`Reads`). Literals and quoted strings are
  such texts, and so is one after another.
-/
import Mathlib.Data.List.Basic

namespace GoudaMatrix.Lib

/-- The first part of a list, but not all of it. -/
def IsPart {α : Type} (part whole : List α) : Prop := part <+: whole ∧ part ≠ whole

theorem isPart_append {α : Type} {part xs ys : List α} (h : IsPart part (xs ++ ys)) :
    IsPart part xs ∨ ∃ rest, part = xs ++ rest ∧ IsPart rest ys := by
  obtain ⟨⟨tail, htail⟩, hne⟩ := h
  rcases List.append_eq_append_iff.mp htail with ⟨rest, hxs, -⟩ | ⟨rest, hpart, hys⟩
  · by_cases hrest : rest = []
    · subst hrest
      rw [List.append_nil] at hxs
      refine .inr ⟨[], by rw [hxs, List.append_nil], List.nil_prefix, ?_⟩
      intro hnil
      exact hne (by rw [hxs, ← hnil, List.append_nil])
    · refine .inl ⟨⟨rest, hxs.symm⟩, fun heq => hrest ?_⟩
      rw [heq] at hxs
      exact List.self_eq_append_right.mp hxs
  · refine .inr ⟨rest, hpart, ⟨tail, hys.symm⟩, fun heq => hne ?_⟩
    rw [hpart, heq]

theorem isPart_cons {α : Type} {part xs : List α} {x : α} (h : IsPart part (x :: xs)) :
    part = [] ∨ ∃ rest, part = x :: rest ∧ IsPart rest xs := by
  have happend : IsPart part ([x] ++ xs) := h
  rcases isPart_append happend with ⟨hfirst, hne⟩ | h
  · rcases List.prefix_cons_iff.mp hfirst with hnil | ⟨t, rfl, ht⟩
    · exact .inl hnil
    · exact absurd (by rw [List.prefix_nil.mp ht]) hne
  · exact .inr h

/-- What is read, and the text behind it. -/
abbrev Reader (α : Type) := List Char → Option (α × List Char)

namespace Reader

/-- The text is read as the value, and no part of it is read. -/
structure Reads {α : Type} (reader : Reader α) (text : List Char) (a : α) : Prop where
  whole : ∀ rest, reader (text ++ rest) = some (a, rest)
  part : ∀ part, IsPart part text → reader part = none

/-- One reader after another. -/
def seq {α β : Type} (first : Reader α) (second : Reader β) : Reader (α × β) := fun text =>
  (first text).bind fun r => (second r.2).map fun r' => ((r.1, r'.1), r'.2)

theorem Reads.seq {α β : Type} {first : Reader α} {second : Reader β} {text text' : List Char}
    {a : α} {b : β} (h : first.Reads text a) (h' : second.Reads text' b) :
    (first.seq second).Reads (text ++ text') (a, b) where
  whole rest := by
    unfold Reader.seq
    rw [List.append_assoc, h.whole, Option.bind_some, h'.whole, Option.map_some]
  part part hpart := by
    unfold Reader.seq
    rcases isPart_append hpart with hfirst | ⟨rest, rfl, hrest⟩
    · rw [h.part part hfirst, Option.bind_none]
    · rw [h.whole, Option.bind_some, h'.part rest hrest, Option.map_none]

/-- The text is read to its end. -/
def all {α : Type} (reader : Reader α) (text : List Char) : Option α :=
  (reader text).bind fun r => if r.2 = [] then some r.1 else none

theorem Reads.all {α : Type} {reader : Reader α} {text : List Char} {a : α}
    (h : reader.Reads text a) : reader.all text = some a := by
  have hwhole := h.whole []
  rw [List.append_nil] at hwhole
  unfold Reader.all
  rw [hwhole, Option.bind_some, if_pos rfl]

theorem Reads.all_part {α : Type} {reader : Reader α} {text part : List Char} {a : α}
    (h : reader.Reads text a) (hpart : IsPart part text) : reader.all part = none := by
  unfold Reader.all
  rw [h.part part hpart, Option.bind_none]

/-! ## Literals and strings -/

def literal : List Char → Reader Unit
  | [], text => some ((), text)
  | _ :: _, [] => none
  | c :: cs, c' :: text => if c = c' then literal cs text else none

theorem literal_reads (cs : List Char) : (literal cs).Reads cs () := by
  induction cs with
  | nil =>
    refine ⟨fun _ => rfl, fun part ⟨hfirst, hne⟩ => ?_⟩
    exact absurd (List.prefix_nil.mp hfirst) hne
  | cons c cs ih =>
    refine ⟨fun rest => (if_pos rfl).trans (ih.whole rest), fun part hpart => ?_⟩
    rcases isPart_cons hpart with rfl | ⟨rest, rfl, hrest⟩
    · rfl
    · exact (if_pos rfl).trans (ih.part rest hrest)

/-- The text of a string up to the closing quote. Quotes and backslashes are escaped. -/
def escape : List Char → List Char
  | [] => ['"']
  | c :: cs => if c = '"' ∨ c = '\\' then '\\' :: c :: escape cs else c :: escape cs

/-- A string up to its closing quote. -/
def quoted : Reader (List Char)
  | [] => none
  | ['\\'] => none
  | '\\' :: c :: text => (quoted text).map fun r => (c :: r.1, r.2)
  | c :: text => if c = '"' then some ([], text) else (quoted text).map fun r => (c :: r.1, r.2)

theorem quoted_cons {c : Char} (h : ¬(c = '"' ∨ c = '\\')) (text : List Char) :
    quoted (c :: text) = (quoted text).map fun r => (c :: r.1, r.2) := by
  obtain ⟨hquote, hbackslash⟩ := not_or.mp h
  rw [quoted.eq_def]
  split
  · next heq => cases heq
  · next heq => exact absurd (List.cons.inj heq).1 hbackslash
  · next heq => exact absurd (List.cons.inj heq).1 hbackslash
  · next heq =>
    cases heq
    exact if_neg hquote

theorem quoted_reads (cs : List Char) : quoted.Reads (escape cs) cs := by
  induction cs with
  | nil =>
    refine ⟨fun _ => rfl, fun part hpart => ?_⟩
    rcases isPart_cons hpart with rfl | ⟨rest, rfl, hfirst, hne⟩
    · rfl
    · exact absurd (List.prefix_nil.mp hfirst) hne
  | cons c cs ih =>
    unfold escape
    split
    · refine ⟨fun rest => ?_, fun part hpart => ?_⟩
      · exact congrArg (Option.map fun r => (c :: r.1, r.2)) (ih.whole rest)
      · rcases isPart_cons hpart with rfl | ⟨rest, rfl, hrest⟩
        · rfl
        · rcases isPart_cons hrest with rfl | ⟨rest', rfl, hrest'⟩
          · rfl
          · exact congrArg (Option.map fun r => (c :: r.1, r.2)) (ih.part rest' hrest')
    · next hplain =>
      refine ⟨fun rest => ?_, fun part hpart => ?_⟩
      · rw [List.cons_append, quoted_cons hplain, ih.whole, Option.map_some]
      · rcases isPart_cons hpart with rfl | ⟨rest, rfl, hrest⟩
        · rfl
        · rw [quoted_cons hplain, ih.part rest hrest, Option.map_none]

/-- A text between quotes. -/
def string : Reader (Unit × List Char) := (literal ['"']).seq quoted

/-- The text of a string. -/
def quote (cs : List Char) : List Char := '"' :: escape cs

theorem string_reads (cs : List Char) : string.Reads (quote cs) ((), cs) :=
  (literal_reads ['"']).seq (quoted_reads cs)

end Reader

end GoudaMatrix.Lib
