import Mathlib.Data.List.Basic
import Mathlib.Data.List.Infix

/-!
# Glob Patterns

A pattern is read byte by byte: `*` stands for any text, `?` for any byte, a class in brackets for
a byte of one of its ranges (or, after `^`, of none of them), a backslash takes the special meaning
from what follows it, and any other byte stands for itself. The text has to match from end to end.

## Main results

* `globMatch_literal_star`: a pattern that is a text without metacharacters and a star matches what
  begins with the text.
-/

namespace GlobPattern

/-- A text. -/
abbrev Bytes := List UInt8

/-- A part of a pattern. -/
inductive Token where
  | any
  | one
  | lit (b : UInt8)
  | cls (negated : Bool) (ranges : List (UInt8 × UInt8))

/-- Reading a pattern, outside a class or in one: whether it is negated, and the ranges that are
already read. A class that is not closed ends with the pattern. -/
def tokens : Option (Bool × List (UInt8 × UInt8)) → Bytes → List Token
  | none, [] => []
  | none, 42 :: p => .any :: tokens none p
  | none, 63 :: p => .one :: tokens none p
  | none, 91 :: 94 :: p => tokens (some (true, [])) p
  | none, 91 :: p => tokens (some (false, [])) p
  | none, 92 :: b :: p => .lit b :: tokens none p
  | none, b :: p => .lit b :: tokens none p
  | some (negated, ranges), [] => [.cls negated ranges]
  | some (negated, ranges), 92 :: b :: p => tokens (some (negated, (b, b) :: ranges)) p
  | some (negated, ranges), 93 :: p => .cls negated ranges :: tokens none p
  | some (negated, ranges), a :: 45 :: b :: p =>
      tokens (some (negated, (min a b, max a b) :: ranges)) p
  | some (negated, ranges), b :: p => tokens (some (negated, (b, b) :: ranges)) p

/-- A part of a pattern, other than a star, matches a byte. -/
def Token.accepts (t : Token) (b : UInt8) : Bool :=
  match t with
  | .any => false
  | .one => true
  | .lit c => b = c
  | .cls negated ranges => negated != ranges.any fun r => r.1 ≤ b && b ≤ r.2

/-- The parts of a pattern match a text. -/
def matchTokens : List Token → Bytes → Bool
  | [], s => s.isEmpty
  | .any :: ts, s => s.tails.any fun t => matchTokens ts t
  | t :: ts, s =>
      match s with
      | [] => false
      | b :: rest => t.accepts b && matchTokens ts rest

/-- A pattern matches a text. -/
def globMatch (pattern s : Bytes) : Bool := matchTokens (tokens none pattern) s

/-- The byte of `*`. -/
def star : UInt8 := '*'.toUInt8

/-- The bytes with a special meaning: `*`, `?`, `[` and the backslash. -/
def metacharacters : Bytes := [42, 63, 91, 92]

/-- A byte without a special meaning stands for itself. -/
theorem tokens_cons {b : UInt8} {p : Bytes} (hb : b ∉ metacharacters) :
    tokens none (b :: p) = .lit b :: tokens none p := by
  simp only [metacharacters, List.mem_cons, List.not_mem_nil, or_false, not_or] at hb
  obtain ⟨hstar, hquestion, hbracket, hbackslash⟩ := hb
  rw [tokens] <;> simp_all

/-- The parts of a text without metacharacters and a star. -/
theorem tokens_literal_star {pre : Bytes} (hpre : ∀ b ∈ pre, b ∉ metacharacters) :
    tokens none (pre ++ [star]) = pre.map .lit ++ [.any] := by
  induction pre with
  | nil => rfl
  | cons b rest ih =>
      rw [List.cons_append, tokens_cons (hpre b List.mem_cons_self),
        ih fun c hc => hpre c (List.mem_cons_of_mem b hc)]
      rfl

/-- A star matches any text. -/
theorem matchTokens_any (s : Bytes) : matchTokens [.any] s = true := by
  rw [matchTokens, List.any_eq_true]
  exact ⟨[], (List.mem_tails [] s).mpr (List.nil_suffix), rfl⟩

/-- A text and a star match what begins with the text. -/
theorem matchTokens_literal_star {pre s : Bytes} :
    matchTokens (pre.map .lit ++ [.any]) s = true ↔ pre <+: s := by
  induction pre generalizing s with
  | nil => exact iff_of_true (matchTokens_any s) List.nil_prefix
  | cons b rest ih =>
      cases s with
      | nil => simp [matchTokens]
      | cons c s =>
          rw [List.map_cons, List.cons_append, matchTokens, Bool.and_eq_true, ih,
            List.cons_prefix_cons, Token.accepts, decide_eq_true_iff]
          exact and_congr_left fun _ => eq_comm
          intro h
          exact Token.noConfusion h

/-- A pattern that is a text without metacharacters and a star matches what begins with the
text. -/
theorem globMatch_literal_star {pre s : Bytes} (hpre : ∀ b ∈ pre, b ∉ metacharacters) :
    globMatch (pre ++ [star]) s = true ↔ pre <+: s := by
  rw [globMatch, tokens_literal_star hpre, matchTokens_literal_star]

/-- `h[^a-c]l*` matches what begins with an `h`, a byte outside the range and an `l`. -/
example : (globMatch [104, 91, 94, 97, 45, 99, 93, 108, 42] [104, 100, 108, 108, 111],
    globMatch [104, 91, 94, 97, 45, 99, 93, 108, 42] [104, 98, 108, 108, 111]) = (true, false) := by
  decide

end GlobPattern
