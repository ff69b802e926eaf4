import Metamodel.Join.Basic
import Metamodel.Text.Blank

/-!
# Join queries

A query is a sequence of conjuncts between words `and`, in any case, outside of single quotes.  A conjunct that, without
enclosing parentheses, equates an attribute of `this` with an attribute of the related class is a pair; any other
conjunct is a filter.  `Join.parse` is total: there is no malformed query.
-/

namespace Metamodel

namespace Join

/-! ### Terms -/

/-- One side of an equality, or a mention in a filter. -/
inductive Term where
  | this (member : String)
  | ofClass (name member : String)
  | literal
deriving DecidableEq

def isIdentifierStart (c : Char) : Bool :=
  c.isAlpha || c == '_' || c == '$'

def isIdentifierPart (c : Char) : Bool :=
  c.isAlphanum || c == '_' || c == '$'

/-- Identifiers are made of ASCII letters, digits, `_` and `$`, and do not start with a digit. -/
def isIdentifier : List Char → Bool
  | [] => false
  | c :: cs => isIdentifierStart c && cs.all isIdentifierPart

/-- Two identifiers with a dot between them mention an attribute; any other text is a literal. -/
def Term.ofText (cs : List Char) : Term :=
  let cs := Text.trim cs
  let name := cs.takeWhile (· != '.')
  match cs.dropWhile (· != '.') with
  | _ :: member =>
    if isIdentifier name && isIdentifier member then
      if name = "this".toList then .this (String.ofList member) else .ofClass (String.ofList name) (String.ofList member)
    else .literal
  | [] => .literal

/-! ### Conjuncts -/

/-- The words of a conjunct, with single blanks between them. -/
def conjunct (ws : List (List Char)) : List Char :=
  [' '].intercalate ws

def isAnd (w : List Char) : Bool :=
  w.map Char.toLower == ['a', 'n', 'd']

/-- The word has an odd number of quotes, so that it opens or closes a literal. -/
def togglesQuote (w : List Char) : Bool :=
  w.count '\'' % 2 == 1

/-- The conjuncts of a list of words, given the words `current` of the conjunct at hand and whether a literal is open
after them. -/
def conjunctsFrom (quoted : Bool) (current : List (List Char)) : List (List Char) → List (List (List Char))
  | [] => if current.isEmpty then [] else [current]
  | w :: ws =>
    if !quoted && isAnd w then
      (if current.isEmpty then [] else [current]) ++ conjunctsFrom quoted [] ws
    else conjunctsFrom (quoted ^^ togglesQuote w) (current ++ [w]) ws

def conjuncts (query : List Char) : List (List Char) :=
  (conjunctsFrom false [] (Text.words query)).map conjunct

/-! ### Mentions -/

/-- The text outside of quotes. -/
def unquoted (quoted : Bool) : List Char → List Char
  | [] => []
  | c :: cs => if c = '\'' then unquoted (!quoted) cs else if quoted then unquoted quoted cs else c :: unquoted quoted cs

/-- The attributes that a conjunct mentions outside of literals. -/
def mentions (c : List Char) : List Term :=
  (((unquoted false c).splitOnP fun c => !(isIdentifierPart c || c == '.')).map Term.ofText).filter (· != .literal)

/-! ### Equalities -/

/-- The text without the parentheses that enclose it. -/
def stripParens (cs : List Char) : List Char :=
  go cs.length (Text.trim cs)
where
  go : Nat → List Char → List Char
    | 0, cs => cs
    | steps + 1, cs =>
      match cs with
      | '(' :: rest => if rest.getLast? = some ')' then go steps (Text.trim rest.dropLast) else cs
      | _ => cs

def isOperator (c : Char) : Bool :=
  c == '=' || c == '!' || c == '<' || c == '>'

/-- The two sides of a conjunct whose first operator is a single equals sign. -/
def equality? (c : List Char) : Option (Term × Term) :=
  let c := stripParens c
  match c.dropWhile (! isOperator ·) with
  | '=' :: '=' :: _ => none
  | '=' :: right => some (.ofText (c.takeWhile (! isOperator ·)), .ofText right)
  | _ => none

/-- The pair that a conjunct stands for, if it equates an attribute of `this` with one of the related class. -/
def pair? (related : String) (c : List Char) : Option JoinPair :=
  match equality? c with
  | some (.this a, .ofClass name b) => if name = related then some ⟨a, b⟩ else none
  | some (.ofClass name b, .this a) => if name = related then some ⟨a, b⟩ else none
  | _ => none

/-! ### Queries -/

def Term.className? : Term → Option String
  | .ofClass name _ => some name
  | _ => none

def Term.isThis : Term → Bool
  | .this _ => true
  | _ => false

/-- The join of one conjunct. -/
def ofConjunct (related : String) (c : List Char) : Join :=
  let terms := mentions c
  let classes := terms.filterMap Term.className?
  let pair := pair? related c
  { pairs := pair.toList
    filters := if pair.isNone then [String.ofList c] else []
    referencesThis := terms.any Term.isThis
    referencesRelated := classes.contains related
    otherClasses := (classes.filter (· != related)).eraseDups }

/-- The join of a query to the class named `related`. -/
def parse (query related : String) : Join :=
  ((conjuncts query.toList).map (ofConjunct related)).foldl append empty

end Join

end Metamodel
