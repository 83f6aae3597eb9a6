-- Text in colour for a terminal, or plain text where colours are off.
namespace EngineBench.Report

/-- The codes of a style in the order in which a terminal is told them. -/
inductive Paint where
  | bold
  | green
  | red
  | reversedGreen
  deriving DecidableEq, Repr

namespace Paint

def codes : Paint → List Char
  | bold => "1".toList
  | green => "32".toList
  | red => "31".toList
  | reversedGreen => "7;32".toList

def on (p : Paint) : List Char := '\x1b' :: '[' :: p.codes ++ ['m']

def off : List Char := "\x1b[0m".toList

/-- Starts the style again behind every place where the text itself ends all styles. -/
def resume (p : Paint) : List Char → List Char
  | '\x1b' :: '[' :: '0' :: 'm' :: rest => off ++ p.on ++ resume p rest
  | c :: rest => c :: resume p rest
  | [] => []

def apply (p : Paint) (colour : Bool) (text : String) : String :=
  if colour then String.ofList (p.on ++ p.resume text.toList ++ off) else text

end Paint

end EngineBench.Report
