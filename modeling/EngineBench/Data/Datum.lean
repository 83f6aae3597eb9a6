-- Documents as trees of data, whatever the format they are written in. A text that breaks off, or
-- breaks the rules of its format, gives the tree up to that place: reading goes from left to right,
-- and the first thing that is wrong is the one that counts.
import EngineBench.Data.Mismatch

namespace EngineBench.Data

/-- A tree over the scalars of a format. The items of a map are its keys and values in turn. What
keeps the rules of the format and still stands for no value is `valueless`, and `torn` stands at the
place where the text goes wrong. -/
inductive Datum (σ : Type) where
  | leaf (s : σ)
  | ref (id : Nat)
  | seq (items : List (Datum σ))
  | map (items : List (Datum σ))
  | valueless
  | torn

namespace Datum

variable {σ : Type}

mutual

/-- Whether nothing is wrong within a tree. -/
def isWhole : Datum σ → Bool
  | .leaf _ => true
  | .ref _ => true
  | .seq items => allWhole items
  | .map items => allWhole items
  | .valueless => true
  | .torn => false

def allWhole : List (Datum σ) → Bool
  | [] => true
  | t :: rest => t.isWhole && allWhole rest

end

end Datum

/-- A document: its tree, the trees that a reference can stand for, and how many references may
be followed while it is read. -/
structure Document (σ : Type) where
  root : Datum σ
  anchors : List (Nat × Datum σ)
  followLimit : Nat

/-- What a format says about its scalars, and where formats differ. -/
structure Format (σ : Type) where
  /-- The text of a scalar; the second argument says what was asked for. -/
  text : σ → String → Except Mismatch String
  bool : σ → Except Mismatch Bool
  /-- A natural number up to a limit; the last argument says what was asked for. -/
  natural : σ → Nat → String → Except Mismatch Nat
  isNull : σ → Except Mismatch Bool
  /-- Whether a scalar may stand for an empty list, map or structure. -/
  isEmpty : σ → Bool
  /-- The complaint about a scalar where something else was asked for. -/
  complaint : σ → String → Mismatch
  /-- Whether a list may stand for a structure, its items being the fields in order, and whether
  an item too many is wrong. -/
  positional : Bool
  strictLength : Bool

end EngineBench.Data
