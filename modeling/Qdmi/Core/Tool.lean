import Qdmi.Core.Fomac

/-!
# A Compilation Tool

`example_tool.cpp`: mapping a program of up to two qubits to an edge of a
device.

The tool works on the text of a program. It finds the register declaration with
a regular expression and rewrites the declaration and the indices by replacing
substrings, so texts are bytes here and nothing is parsed. The loop that
replaces substrings need not end; it gets an amount of fuel that is enough
whenever it does.

The expression matches as its grammar says. What an implementation of `std::regex`
may do besides is left out: it may give up with a `regex_error` when a match gets
too complex, and one that recurses for every character may run out of stack on a long
text.

## Main definitions

* `decimal`: A number as a stream prints it.
* `find`: `std::string::find`.
* `replaceAllOccurrences`: Replacing substrings in a loop.
* `registerMatch`, `registerSizes`: The regular expression and its matches.
* `Compiled`: The ways in which `compile` can end.
* `declaration`, `indexedQ`: The texts the tool looks for and puts in.
* `compile`: `Tool::compile`.
-/

namespace Qdmi

/-- A number as a stream prints it. -/
def decimal (n : Nat) : List UInt8 := (Nat.toDigits 10 n).map (fun c => UInt8.ofNat c.toNat)

/-- `std::string::find`. -/
def find (str pattern : List UInt8) (start : Nat) : Option Nat :=
  (List.range' start (str.length + 1 - start)).find?
    (fun pos => pattern.isPrefixOf (str.drop pos))

/-- The loop of `Tool::replace_all_occurrences`. -/
def replaceLoop (source target : List UInt8) :
    Nat → List UInt8 → Nat → Option (List UInt8)
  | 0, _, _ => none
  | fuel + 1, str, startPos =>
    match find str source startPos with
    | none => some str
    | some pos =>
      replaceLoop source target fuel
        (str.take pos ++ target ++ str.drop (pos + source.length)) (pos + target.length)

/-- `Tool::replace_all_occurrences`. Without a value it does not return. -/
def replaceAllOccurrences (str source target : List UInt8) : Option (List UInt8) :=
  replaceLoop source target (str.length + 1) str 0

example : replaceAllOccurrences (ascii "q[0] q[0]") (ascii "q[0]") (ascii "q[10]") =
    some (ascii "q[10] q[10]") := by decide

example : replaceAllOccurrences (ascii "ab") [] (ascii "c") = none := by decide

/-- A character that `\d` matches. -/
def isDigit (c : UInt8) : Bool := 48 ≤ c && c ≤ 57

/-- A character that `\w` matches. -/
def isWord (c : UInt8) : Bool :=
  isDigit c || (65 ≤ c && c ≤ 90) || (97 ≤ c && c ≤ 122) || c == 95

/-- What the expression `qreg \w+\[(\d)\];` matches at the beginning of a text:
    the captured digit and the length of the match. The brackets of the
    expression are no word characters, so `\w+` takes the whole word. -/
def registerMatch (str : List UInt8) : Option (Nat × Nat) :=
  if (ascii "qreg ").isPrefixOf str then
    let name := (str.drop 5).takeWhile isWord
    match (str.drop 5).dropWhile isWord with
    | 91 :: d :: 93 :: 59 :: _ =>
      if name ≠ [] && isDigit d then some (d.toNat - 48, 5 + name.length + 4) else none
    | _ => none
  else none

/-- Going over the matches of the expression, when the next `skip` characters
    belong to a match. -/
def registerSizesFrom : Nat → List UInt8 → List Nat
  | _, [] => []
  | skip + 1, _ :: str => registerSizesFrom skip str
  | 0, c :: str =>
    match registerMatch (c :: str) with
    | some (size, length) => size :: registerSizesFrom (length - 1) str
    | none => registerSizesFrom 0 str

/-- The captured digits of the matches of the expression. -/
def registerSizes (str : List UInt8) : List Nat := registerSizesFrom 0 str

/-- The ways in which `compile` can end. -/
inductive Compiled where
  | returned (text : List UInt8)
  | threw (exception : Thrown)
  | undefined (fault : Fault)
  | diverges
  deriving DecidableEq, Repr

/-- Go on with the value of a call that may throw. -/
def orThrow {α : Type} (result : Except Thrown α) (rest : α → Compiled) : Compiled :=
  match result with
  | .error exception => .threw exception
  | .ok value => rest value

/-- Go on with the text that a replacement returns. -/
def orDiverge (result : Option (List UInt8)) (rest : List UInt8 → Compiled) : Compiled :=
  match result with
  | none => .diverges
  | some text => rest text

/-- A declaration of the register `q`, as the tool writes it. -/
def declaration (numQubits : Nat) : List UInt8 := ascii "qreg q[" ++ decimal numQubits ++ ascii "];"

/-- A reference to the register `q`, as the tool writes it. -/
def indexedQ (index : List UInt8) : List UInt8 := ascii "q[" ++ index ++ ascii "]"

/-- The rewriting at the end of `Tool::compile`. The detour by `aux` keeps an
    index of one that replaces a zero from being replaced again. -/
def rewrite (qasmString : List UInt8) (numQubits available id0 id1 : Nat) : Compiled :=
  orDiverge (replaceAllOccurrences qasmString (declaration numQubits) (declaration available))
    fun result =>
  orDiverge (replaceAllOccurrences result (indexedQ (ascii "0")) (indexedQ (ascii "aux")))
    fun result =>
  orDiverge (replaceAllOccurrences result (indexedQ (ascii "1")) (indexedQ (decimal id1)))
    fun result =>
  orDiverge (replaceAllOccurrences result (indexedQ (ascii "aux")) (indexedQ (decimal id0)))
    fun result => .returned result

/-- `Tool::compile`. -/
def compile (device : ClientDevice) (qasmString : List UInt8) : Compiled :=
  match registerSizes qasmString with
  | [] => .threw (.invalidArgument (ascii "The circuit does not declare any qubits."))
  | _ :: _ :: _ =>
    .threw (.invalidArgument (ascii "The circuit declares more than one qubit register."))
  | [numQubits] =>
    if 2 < numQubits then
      .threw (.invalidArgument (ascii ("The circuit uses more than two qubits but " ++
        "this tool only supports up to two qubits.")))
    else
      orThrow (getQubitsNum device) fun available =>
      if available < numQubits then
        .threw (.invalidArgument
          (ascii "The device does not provide enough qubits for the circuit."))
      else
        orThrow (getCouplingMap device) fun couplingMap =>
        match couplingMap with
        -- `front` of an empty vector.
        | [] => .undefined .readPastEnd
        | edge :: _ =>
          orThrow (getSiteId device edge.1) fun id0 =>
          orThrow (getSiteId device edge.2) fun id1 =>
          orThrow (getQubitsNum device) fun available =>
          rewrite qasmString numQubits available id0 id1

end Qdmi
