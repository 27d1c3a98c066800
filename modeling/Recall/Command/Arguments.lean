/-
Recall.Command.Arguments — reading the arguments of a command line.

A grammar says which options there are and what becomes of the other arguments, the operands. An
argument that begins with a hyphen is an option, by its name in full or by the beginning of one
long name only; `--name=value` and, for names of one letter, `-nvalue` carry the value with them.
Negative numbers and arguments with a space in them are operands, unless they are options, and
behind `--` everything is.

Words are told apart before any is acted on. They are then read from left to right, and the first
that is wrong, or that asks for help, decides. What nothing asks for is only noted.
-/
import Recall.Text.Digit

namespace Recall

namespace Arguments

/-! ## 1. Grammars -/

/-- What an option does. -/
inductive Effect where
  /-- Asks for help. -/
  | help
  /-- Is there or not. -/
  | mark
  /-- Takes a value that is accepted. -/
  | value (accepts : String → Bool)

/-- An option with its names, of which the first is the one it is known by. -/
structure Rule where
  name : String
  others : List String := []
  effect : Effect

/-- The names of an option. -/
def Rule.names (r : Rule) : List String :=
  r.name :: r.others

/-- What operands there may be. -/
inductive Operands where
  /-- One. -/
  | one
  /-- One with everything behind it. -/
  | rest
  deriving DecidableEq, Repr

/-- The options and operands of a command. -/
structure Grammar where
  rules : List Rule
  operands : Operands

/-- Why arguments are not acted on. -/
inductive Refusal where
  /-- They ask for help. -/
  | help
  /-- They are wrong. -/
  | wrong
  deriving DecidableEq, Repr

/-! ## 2. Words -/

/-- An option as it was written. -/
structure Occurrence where
  /-- The option's rule; none for an unknown name. -/
  rule : Option Rule
  /-- Whether the name has one letter behind one hyphen. -/
  short : Bool := false
  /-- The value that was written with the name. -/
  value : Option String := none
  /-- Whether an equals sign stands before it. -/
  separated : Bool := false

/-- An argument by its role. -/
inductive Word where
  | option (o : Occurrence)
  | operand (text : String)
  /-- The mark before operands. -/
  | mark

/-- The text of a list of characters behind its first `n`. -/
def behind (n : Nat) (s : String) : String :=
  String.ofList (s.toList.drop n)

/-- The rule with a name. -/
def Grammar.rule? (g : Grammar) (name : String) : Option Rule :=
  g.rules.find? fun r => r.names.contains name

/-- A name and the value behind its first equals sign. -/
def splitEquals (s : String) : String × Option String :=
  let cs := s.toList
  match cs.dropWhile (· != '=') with
  | [] => (s, none)
  | _ :: v => (String.ofList (cs.takeWhile (· != '=')), some (String.ofList v))

/-- Whether a name has one letter behind one hyphen. -/
def isShort (name : String) : Bool :=
  match name.toList with
  | ['-', c] => c != '-'
  | _ => false

/-- A number with a minus sign, with a point or without. -/
def isNegativeNumber (s : String) : Bool :=
  let digit (c : Char) : Bool := (Chars.digitValue? c).isSome
  let end? (cs : List Char) : Bool := cs.isEmpty || cs == ['\n']
  match s.toList with
  | '-' :: r =>
    let whole := r.takeWhile digit
    match r.dropWhile digit with
    | '.' :: f => !(f.takeWhile digit).isEmpty && end? (f.dropWhile digit)
    | f => !whole.isEmpty && end? f
  | _ => false

/-- The options that a text may abbreviate: by the beginning of a long name, or a name of one letter
with its value behind it. -/
def Grammar.candidates (g : Grammar) (s : String) : List Occurrence :=
  let names := g.rules.flatMap fun r => r.names.map fun n => (n, r)
  if ['-', '-'].isPrefixOf s.toList then
    let (start, value) := splitEquals s
    (names.filter fun (n, _) => start.toList.isPrefixOf n.toList).map fun (_, r) =>
      { rule := some r, value := value, separated := value.isSome }
  else
    names.filterMap fun (n, r) =>
      if n.toList == s.toList.take 2 then
        some { rule := some r, short := true, value := some (behind 2 s) }
      else if s.toList.isPrefixOf n.toList then some { rule := some r, short := isShort n }
      else none

/-- The role of an argument in front of the mark. -/
def Grammar.word (g : Grammar) (s : String) : Except Refusal Word :=
  if s.toList.head? != some '-' || s == "-" then .ok (.operand s)
  else
    match g.rule? s, splitEquals s with
    | some r, _ => .ok (.option { rule := some r, short := isShort s })
    | none, (name, value) =>
      match value, g.rule? name with
      | some v, some r =>
        .ok (.option { rule := some r, short := isShort name, value := some v, separated := true })
      | _, _ =>
        match g.candidates s with
        | [o] => .ok (.option o)
        | _ :: _ :: _ => .error .wrong
        | [] =>
          if isNegativeNumber s || s.toList.contains ' ' then .ok (.operand s)
          else .ok (.option { rule := none })

/-- The roles of all arguments. -/
def Grammar.words (g : Grammar) : List String → Except Refusal (List Word)
  | [] => .ok []
  | s :: r =>
    if s = "--" then .ok (.mark :: r.map .operand)
    else do
      let w ← g.word s
      return w :: (← g.words r)

/-! ## 3. Reading -/

/-- What the arguments give. -/
structure Reading where
  /-- The options by name, with their values. -/
  given : List (String × String) := []
  operands : Option (List String) := none
  /-- Whether there are arguments that nothing asks for. -/
  extra : Bool := false

/-- The last value of an option. -/
def Reading.value? (r : Reading) (name : String) : Option String :=
  (r.given.reverse.find? fun g => g.1 == name).map Prod.snd

/-- Whether an option is there. -/
def Reading.has (r : Reading) (name : String) : Bool :=
  (r.value? name).isSome

/-- Acts on an option with its value. -/
def Reading.act (a : Reading) (r : Rule) (value : String) : Except Refusal Reading :=
  match r.effect with
  | .help => .error .help
  | .mark => .ok { a with given := a.given ++ [(r.name, "")] }
  | .value accepts =>
    if accepts value then .ok { a with given := a.given ++ [(r.name, value)] }
    else .error .wrong

/-- The options in one word, with their values; none for a value that stands in the next word.
Names of one letter may share a hyphen as long as they take no value. `fuel` bounds the letters. -/
def Grammar.cluster (g : Grammar) : Nat → Rule → Occurrence →
    Except Refusal (List (Rule × Option String) × Bool)
  | 0, _, _ => .error .wrong
  | fuel + 1, r, o =>
    match r.effect, o.value with
    | .value _, value => .ok ([(r, value)], false)
    | _, none => .ok ([(r, some "")], false)
    | _, some v =>
      match o.short, v.toList with
      | true, c :: rest =>
        if o.separated || c == '-' then .error .wrong
        else
          match g.rule? (String.ofList ['-', c]) with
          | none => .ok ([(r, some "")], true)
          | some next => do
            let o := match rest with
              | [] => { rule := some next, short := true }
              | '=' :: rest => { rule := some next, short := true,
                                 value := some (String.ofList rest), separated := true }
              | rest => { rule := some next, short := true, value := some (String.ofList rest) }
            let (more, extra) ← g.cluster fuel next o
            return ((r, some "") :: more, extra)
      | _, _ => .error .wrong

/-- Gives the next word to the option that waits for a value, if one does. -/
def fillIn (options : List (Rule × Option String)) (next : List Word) :
    Except Refusal (List (Rule × String) × List Word) :=
  match options with
  | [] => .ok ([], next)
  | (r, some v) :: rest => do
    let (more, next) ← fillIn rest next
    return ((r, v) :: more, next)
  | (r, none) :: _ =>
    match next with
    | .operand v :: next => .ok ([(r, v)], next)
    | _ => .error .wrong

/-- Reads words from left to right. `raw` is the text of each. `fuel` bounds the words. -/
def Grammar.readFrom (g : Grammar) : Nat → Reading → List Word → List String →
    Except Refusal Reading
  | 0, a, _, _ => .ok a
  | fuel + 1, a, ws, raw =>
    match ws, a.operands, g.operands with
    | [], _, _ => .ok a
    | .option o :: r, _, _ =>
      match o.rule with
      | none => g.readFrom fuel { a with extra := true } r (raw.drop 1)
      | some rule => do
        let letters := (o.value.getD "").length + 1
        let (options, extra) ← g.cluster letters rule o
        let (options, rest) ← fillIn options r
        let a ← options.foldlM (fun a (r, v) => a.act r v) { a with extra := a.extra || extra }
        g.readFrom fuel a rest (raw.drop (ws.length - rest.length))
    | .operand _ :: _, none, .rest => .ok { a with operands := some raw }
    | .mark :: .operand _ :: _, none, .rest => .ok { a with operands := some raw }
    | .operand s :: .mark :: r, none, .one =>
      g.readFrom fuel { a with operands := some [s] } r (raw.drop 2)
    | .operand s :: r, none, .one => g.readFrom fuel { a with operands := some [s] } r (raw.drop 1)
    | .mark :: .operand s :: r, none, .one =>
      g.readFrom fuel { a with operands := some [s] } r (raw.drop 2)
    | _ :: r, _, _ => g.readFrom fuel { a with extra := true } r (raw.drop 1)

/-- Reads arguments. -/
def Grammar.read (g : Grammar) (argv : List String) : Except Refusal Reading := do
  g.readFrom (argv.length + 1) {} (← g.words argv) argv

end Arguments

end Recall
