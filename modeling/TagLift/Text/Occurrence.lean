import TagLift.Text.Basic

/-!
# Occurrences of a form

A form reads at most one occurrence from the front of a text and never an empty one. The
occurrences in a text are found from left to right, each search starting where the last
occurrence ended.
-/

namespace TagLift

/-- A stretch of text that a form has read, with the parts it singles out. -/
structure Occurrence where
  whole : Text
  parts : List Text
deriving DecidableEq, Repr

/-- A way to read an occurrence from the front of a text. -/
abbrev Form := Text → Option Occurrence

namespace Form

/-- The occurrences after the next `skip` characters. -/
def findFrom (form : Form) : Nat → Text → List Occurrence
  | _, [] => []
  | skip + 1, _ :: rest => findFrom form skip rest
  | 0, c :: rest =>
      match form (c :: rest) with
      | some found => found :: findFrom form (found.whole.length - 1) rest
      | none => findFrom form 0 rest

/-- The occurrences in a text, from left to right. -/
def findAll (form : Form) (text : Text) : List Occurrence :=
  findFrom form 0 text

/-- Whether a text holds an occurrence. -/
def occursIn (form : Form) (text : Text) : Bool :=
  !(form.findAll text).isEmpty

/-- The text after the next `skip` characters with each occurrence replaced. -/
def replaceFrom (form : Form) (replacement : Occurrence → Text) : Nat → Text → Text
  | _, [] => []
  | skip + 1, _ :: rest => replaceFrom form replacement skip rest
  | 0, c :: rest =>
      match form (c :: rest) with
      | some found =>
          replacement found ++ replaceFrom form replacement (found.whole.length - 1) rest
      | none => c :: replaceFrom form replacement 0 rest

def replaceAll (form : Form) (replacement : Occurrence → Text) (text : Text) : Text :=
  replaceFrom form replacement 0 text

end Form

end TagLift
