import Formwork.Decimal.Numeral
import Formwork.Pattern.Node
import Formwork.Text.CharName
import Formwork.Text.Quoted

/-!
Reading a pattern. A pattern is read token by token, a backslash and the character after it being
one token; a backslash at the very end is refused as soon as it is the next token.
-/

namespace Formwork.Pattern

/-- Why a text is no pattern. -/
inductive ReadError
  /-- A mistake, with its position if it has one. -/
  | invalid (message : String) (position : Option Nat)
  | conflictingOptions
  | tooManyRounds
deriving Repr

/-- The options of a pattern. -/
structure Options where
  ignoreCase : Bool := false
  multiline : Bool := false
  dotAll : Bool := false
  verbose : Bool := false
  ascii : Bool := false
deriving DecidableEq, Repr

structure Reading where
  rest : List Char
  position : Nat := 0
  /-- The options set for the whole pattern, and whether words were asked for in all scripts. -/
  options : Options := {}
  unicode : Bool := false
  template : Bool := false
  /-- The number of groups opened, the whole pattern counted. -/
  groups : Nat := 1
  closed : List (Nat × Width) := []
  names : List (String × Nat) := []
  /-- The groups opened before the look behind that is being read. -/
  behind : Option Nat := none
  conditions : List (Nat × Nat) := []

abbrev Reader := StateT Reading (Except ReadError)

inductive Token
  | plain (c : Char)
  | escaped (c : Char)
deriving DecidableEq

namespace Token

def text : Token → String
  | plain c => String.ofList [c]
  | escaped c => String.ofList ['\\', c]

def length : Token → Nat
  | plain _ => 1
  | escaped _ => 2

def isPlain (p : Char → Bool) : Token → Bool
  | plain c => p c
  | escaped _ => false

end Token

/-- Fails, the position lying `back` characters before the next token. -/
def fail {α : Type} (message : String) (back : Nat := 0) : Reader α := do
  throw (.invalid message (some ((← get).position - back)))

def failAt {α : Type} (message : String) (position : Nat) : Reader α :=
  throw (.invalid message (some position))

def nextToken : List Char → Option Token
  | [] => none
  | '\\' :: c :: _ => some (.escaped c)
  | c :: _ => some (.plain c)

def peek : Reader (Option Token) := return nextToken (← get).rest

/-- A lone backslash at the end is no token. -/
def guardEnd : Reader Unit := do
  if (← get).rest = ['\\'] then fail "bad escape (end of pattern)"

def take : Reader (Option Token) := do
  let t ← peek
  let n := (t.map Token.length).getD 0
  modify fun s => { s with rest := s.rest.drop n, position := s.position + n }
  guardEnd
  return t

def nextIs (c : Char) : Reader Bool := return (← peek) = some (.plain c)

/-- Takes the character if it is next. -/
def accept (c : Char) : Reader Bool := do
  if ← nextIs c then
    let _ ← take
    return true
  else return false

/-- Takes up to `n` characters of a kind. -/
def takeWhile (holds : Char → Bool) : (n : Nat) → Reader (List Char)
  | 0 => return []
  | n + 1 => do
      match ← peek with
      | some (.plain c) =>
          if holds c then
            let _ ← take
            return c :: (← takeWhile holds n)
          else return []
      | _ => return []

/-- Takes everything up to a character, which is taken too. -/
def takeUntil (stop : Char) (what : String) : (fuel : Nat) → (taken : String) → Reader String
  | 0, _ => fail "unexpected end of pattern"
  | fuel + 1, taken => do
      match ← take with
      | none =>
          if taken = "" then fail s!"missing {what}"
          else fail ("missing " ++ String.ofList [stop] ++ ", unterminated name") taken.length
      | some t =>
          if t = .plain stop then
            if taken = "" then fail s!"missing {what}" 1
            return taken
          else takeUntil stop what fuel (taken ++ t.text)

def takeName (stop : Char) (what : String) : Reader String := do
  takeUntil stop what ((← get).rest.length + 1) ""

def isOctal (c : Char) : Bool := '0' ≤ c && c ≤ '7'

def hexValue? (c : Char) : Option Nat :=
  if '0' ≤ c ∧ c ≤ '9' then some (c.toNat - 48)
  else if 'a' ≤ c ∧ c ≤ 'f' then some (c.toNat - 87)
  else if 'A' ≤ c ∧ c ≤ 'F' then some (c.toNat - 55)
  else none

def valueOf (base : Nat) (ds : List Char) : Nat :=
  ds.foldl (fun n c => base * n + (hexValue? c).getD 0) 0

def escapeText (cs : List Char) : String := String.ofList ('\\' :: cs)

def badEscape {α : Type} (cs : List Char) : Reader α :=
  fail s!"bad escape {escapeText cs}" (cs.length + 1)

/-- A character by its hexadecimal code of `n` digits. -/
def hexEscape (c : Char) (n : Nat) : Reader Nat := do
  let ds ← takeWhile (fun d => (hexValue? d).isSome) n
  if ds.length ≠ n then
    fail s!"incomplete escape {escapeText (c :: ds)}" (ds.length + 2)
  let value := valueOf 16 ds
  if 0x10FFFF < value then badEscape (c :: ds)
  return value

def namedEscape : Reader Nat := do
  unless ← accept '\x7b' do fail "missing \x7b"
  let name ← takeName '\x7d' "character name"
  match Text.charOfName? name with
  | some n => return n
  | none => fail ("undefined character name " ++ Text.quote name) (name.length + 4)

/-- The character that an escape of a letter stands for. -/
def controlEscape? (c : Char) : Option Nat :=
  match c with
  | 'a' => some 7
  | 'b' => some 8
  | 'f' => some 12
  | 'n' => some 10
  | 'r' => some 13
  | 't' => some 9
  | 'v' => some 11
  | '\\' => some 92
  | _ => none

def category? (c : Char) : Option Item :=
  match c with
  | 'd' => some (.category .digit false)
  | 'D' => some (.category .digit true)
  | 's' => some (.category .space false)
  | 'S' => some (.category .space true)
  | 'w' => some (.category .word false)
  | 'W' => some (.category .word true)
  | _ => none

def checkOctal (ds : List Char) : Reader Nat := do
  let value := valueOf 8 ds
  if 0o377 < value then
    fail s!"octal escape value {escapeText ds} outside of range 0-0o377" (ds.length + 1)
  return value

/-- The escapes of code points, by hexadecimal code or by name. -/
def codeEscape? (c : Char) : Option (Reader Nat) :=
  match c with
  | 'x' => some (hexEscape c 2)
  | 'u' => some (hexEscape c 4)
  | 'U' => some (hexEscape c 8)
  | 'N' => some namedEscape
  | _ => none

/-- An escape inside a class. -/
def classEscape (c : Char) : Reader Item := do
  match controlEscape? c, category? c, codeEscape? c with
  | some n, _, _ => return .point n
  | none, some item, _ => return item
  | none, none, some read => return .point (← read)
  | none, none, none =>
      if isOctal c then
        let ds ← takeWhile isOctal 2
        return .point (← checkOctal (c :: ds))
      else if c.isDigit || Text.isAsciiLetter c then badEscape [c]
      else return .point c.toNat

/-- A group that is closed, and was not opened within the look behind that is being read. -/
def checkReference (index back : Nat) : Reader Unit := do
  let s ← get
  if (s.closed.lookup index).isNone then fail "cannot refer to an open group" back
  if s.behind.any fun least => least ≤ index then
    fail "cannot refer to group defined in the same lookbehind subpattern"

def groupReference (options : Options) (index back : Nat) : Reader Node := do
  checkReference index back
  return .reference index options.ignoreCase options.ascii

def charNode (options : Options) (n : Nat) : Node :=
  .chars (.single n options.ignoreCase options.ascii)

def setNode (options : Options) (items : List Item) (negated : Bool) : Node :=
  .chars { items, negated, ignoreCase := options.ignoreCase, ascii := options.ascii }

def place? (options : Options) (c : Char) : Option Place :=
  match c with
  | 'A' => some .textStart
  | 'Z' => some .textEnd
  | 'b' => some (.wordEdge options.ascii)
  | 'B' => some (.noWordEdge options.ascii)
  | _ => none

/-- Digits after a backslash: a character by its octal code of three digits, or a group. -/
def numericEscape (options : Options) (c : Char) : Reader Node := do
  let second ← takeWhile Char.isDigit 1
  let third ← if second ≠ [] ∧ isOctal c ∧ second.all isOctal then takeWhile isOctal 1 else pure []
  if third ≠ [] then return charNode options (← checkOctal (c :: second ++ third))
  let index := valueOf 10 (c :: second)
  if index < (← get).groups then groupReference options index (second.length + 2)
  else fail s!"invalid group reference {index}" (second.length + 1)

/-- An escape outside a class. -/
def escapeNode (options : Options) (c : Char) : Reader Node := do
  match place? options c, category? c, controlEscape? c, codeEscape? c with
  | some p, _, _, _ => return .place p
  | none, some item, _, _ => return .chars { items := [item], ascii := options.ascii }
  | none, none, some n, _ => return charNode options n
  | none, none, none, some read => return charNode options (← read)
  | none, none, none, none =>
      if c = '0' then
        let ds ← takeWhile isOctal 2
        return charNode options (valueOf 8 ds)
      else if c.isDigit then numericEscape options c
      else if Text.isAsciiLetter c then badEscape [c]
      else return charNode options c.toNat

def setMember (t : Token) : Reader Item :=
  match t with
  | .plain c => return .point c.toNat
  | .escaped c => classEscape c

/-- The members of a class up to its end; one bracket at its start is a member. -/
def setMembers (start : Nat) : (fuel : Nat) → (items : List Item) → Reader (List Item)
  | 0, _ => failAt "unterminated character set" start
  | fuel + 1, items => do
      let some t ← take | failAt "unterminated character set" start
      if t = .plain ']' ∧ items ≠ [] then return items
      let first ← setMember t
      if ← accept '-' then
        let some u ← take | failAt "unterminated character set" start
        if u = .plain ']' then return items ++ [first, .point 45]
        let second ← setMember u
        match first, second with
        | .point low, .point high =>
            if high < low then
              fail s!"bad character range {t.text}-{u.text}" (t.length + 1 + u.length)
            setMembers start fuel (items ++ [.span low high])
        | _, _ => fail s!"bad character range {t.text}-{u.text}" (t.length + 1 + u.length)
      else setMembers start fuel (items ++ [first])

def readSet (options : Options) : Reader Node := do
  let start := (← get).position - 1
  let negated ← accept '^'
  let items ← setMembers start ((← get).rest.length + 1) []
  match items, negated with
  | [.point n], false => return charNode options n
  | [.point n], true => return .chars { CharSet.single n options.ignoreCase options.ascii with negated }
  | _, _ => return setNode options items negated

/-- Rounds of a repetition lie below this bound. -/
def maxRounds : Nat := 4294967295

def roundsOf (ds : List Char) : Reader Nat := do
  let n := valueOf 10 ds
  if maxRounds ≤ n then throw .tooManyRounds
  return n

/-- The bounds of a repetition in braces, or nothing if the brace is an ordinary character. -/
def readBounds (start : Nat) : Reader (Option (Nat × Option Nat)) := do
  if ← nextIs '\x7d' then return none
  let before ← get
  let low ← takeWhile Char.isDigit before.rest.length
  let high ← if ← accept ',' then takeWhile Char.isDigit before.rest.length else pure low
  unless ← accept '\x7d' do
    set before
    return none
  let least ← if low = [] then pure 0 else roundsOf low
  if high = [] then return some (least, none)
  let most ← roundsOf high
  if most < least then failAt "min repeat greater than max repeat" start
  return some (least, some most)

def isPlace : Node → Bool
  | .place _ => true
  | _ => false

def isRepeated : Node → Bool
  | .repeated .. => true
  | _ => false

/-- A repetition of the node before it. -/
def repeatLast (position least : Nat) (most : Option Nat) : List Node → Reader (List Node)
  | [] => failAt "nothing to repeat" position
  | last :: before => do
      if isPlace last then failAt "nothing to repeat" position
      if isRepeated last then failAt "multiple repeat" position
      let greed ← if ← accept '?' then pure Greed.lazy
        else if ← accept '+' then pure Greed.possessive else pure Greed.greedy
      return .repeated least most greed last :: before

def isOptionLetter (c : Char) : Bool := "iLmsxatu".toList.contains c

/-- A letter for an option joins those read before it. -/
def checkLetter (letters : List Char) (c : Char) : Reader Unit := do
  if c = 'L' then fail "bad inline flags: cannot use 'L' flag with a str pattern"
  if (c = 'a' ∧ letters.contains 'u') ∨ (c = 'u' ∧ letters.contains 'a') then
    fail "bad inline flags: flags 'a', 'u' and 'L' are incompatible"

/-- The letter that must follow in a list of options. -/
def takeLetter (missing : String) (ends : List Char) : Reader Char := do
  match ← take with
  | none => fail missing
  | some (.plain c) =>
      if ends.contains c ∨ isOptionLetter c then return c
      else fail (if Text.isLetter c then "unknown flag" else missing) 1
  | some (.escaped _) => fail missing 2

def lettersOn : (fuel : Nat) → (letters : List Char) → Char → Reader (List Char × Char)
  | 0, letters, c => return (letters, c)
  | fuel + 1, letters, c => do
      checkLetter letters c
      let next ← takeLetter "missing -, : or )" [')', '-', ':']
      if isOptionLetter next then lettersOn fuel (c :: letters) next else return (c :: letters, next)

def lettersOff : (fuel : Nat) → (letters : List Char) → Char → Reader (List Char)
  | 0, letters, _ => return letters
  | fuel + 1, letters, c => do
      if ['a', 'u', 'L'].contains c then
        fail "bad inline flags: cannot turn off flags 'a', 'u' and 'L'"
      let next ← takeLetter "missing :" [':']
      if next = ':' then return c :: letters else lettersOff fuel (c :: letters) next

def Options.turnOn (o : Options) (letters : List Char) : Options where
  ignoreCase := o.ignoreCase || letters.contains 'i'
  multiline := o.multiline || letters.contains 'm'
  dotAll := o.dotAll || letters.contains 's'
  verbose := o.verbose || letters.contains 'x'
  ascii := if letters.contains 'u' then false else o.ascii || letters.contains 'a'

def Options.turnOff (o : Options) (letters : List Char) : Options where
  ignoreCase := o.ignoreCase && !letters.contains 'i'
  multiline := o.multiline && !letters.contains 'm'
  dotAll := o.dotAll && !letters.contains 's'
  verbose := o.verbose && !letters.contains 'x'
  ascii := o.ascii

/-- The options of a group, or nothing if they are for the whole pattern. -/
def readOptions (options : Options) (first : Char) : Reader (Option Options) := do
  let fuel := (← get).rest.length + 1
  let (on, next) ← if first = '-' then pure ([], '-') else lettersOn fuel [] first
  if next = ')' then
    modify fun s => { s with
      options := { s.options.turnOn (on.filter fun c => c ≠ 'u') with
        ascii := s.options.ascii || on.contains 'a' }
      unicode := s.unicode || on.contains 'u'
      template := s.template || on.contains 't' }
    return none
  if on.contains 't' then fail "bad inline flags: cannot turn on global flag" 1
  if next = ':' then return some (options.turnOn on)
  let off ← lettersOff fuel [] (← takeLetter "missing flag" [])
  if off.contains 't' then fail "bad inline flags: cannot turn off global flag" 1
  if on.any off.contains then fail "bad inline flags: flag turned on and off" 1
  return some ((options.turnOn on).turnOff off)

def isNameStart (c : Char) : Bool := Text.isLetter c || c = '_'

def isName (name : String) : Bool :=
  match name.toList with
  | [] => false
  | c :: rest => isNameStart c && rest.all Text.isWord

def checkName (name : String) : Reader Unit := do
  unless isName name do
    fail ("bad character in group name " ++ Text.quote name) (name.length + 1)

def groupNamed (name : String) : Reader Nat := do
  match (← get).names.lookup name with
  | some index => return index
  | none => fail ("unknown group name " ++ Text.quote name) (name.length + 1)

def openGroup (name : Option String) : Reader Nat := do
  let s ← get
  let index := s.groups
  set { s with groups := index + 1 }
  if let some name := name then
    if let some first := s.names.lookup name then
      fail (s!"redefinition of group name {Text.quote name} as group {index}; " ++
        s!"was group {first}") (name.length + 1)
    modify fun s => { s with names := (name, index) :: s.names }
  return index

/-- The width of what a node matches. -/
def widthOf (closed : List (Nat × Width)) : Node → Width
  | .empty | .place _ | .look .. => .none
  | .chars _ | .any _ => .one
  | .seq first second => (widthOf closed first).add (widthOf closed second)
  | .either first second => (widthOf closed first).join (widthOf closed second)
  | .group _ body | .atomic body => widthOf closed body
  | .repeated least most _ body => (widthOf closed body).times least most
  | .reference index _ _ => (closed.lookup index).getD .none
  | .conditional _ yes no => (widthOf closed yes).join (widthOf closed no)

def closeGroup (index : Nat) (body : Node) : Reader Unit :=
  modify fun s => { s with closed := (index, widthOf s.closed body) :: s.closed }

/-- The group that a condition asks about, by name or by number. -/
def conditionOf (name : String) : Reader Nat := do
  if isName name then groupNamed name
  else
    match Decimal.readInt? name with
    | some (.ofNat 0) => fail "bad group number" (name.length + 1)
    | some (.ofNat index) =>
        if 1073741823 ≤ index then fail s!"invalid group reference {index}" (name.length + 1)
        modify fun s =>
          if (s.conditions.lookup index).isSome then s
          else { s with conditions := s.conditions ++ [(index, s.position - name.length - 1)] }
        return index
    | _ => fail ("bad character in group name " ++ Text.quote name) (name.length + 1)

def skipComment (start : Nat) : (fuel : Nat) → Reader Unit
  | 0 => return ()
  | fuel + 1 => do
      match ← peek with
      | none => failAt "missing ), unterminated comment" start
      | some t =>
          let _ ← take
          unless t = .plain ')' do skipComment start fuel

def skipLine : (fuel : Nat) → Reader Unit
  | 0 => return ()
  | fuel + 1 => do
      match ← take with
      | none => return ()
      | some t => unless t = .plain '\n' do skipLine fuel

/-- What an opening bracket begins. -/
inductive Opening
  | capture (name : Option String)
  | plain (options : Options)
  | atomic
  | look (behind negated : Bool)
  | condition (index : Nat)
  /-- A node that is complete. -/
  | done (node : Option Node)
  | wholeOptions

/-- Reads what stands after an opening bracket, up to the contents of the group. -/
def readOpening (options : Options) (start : Nat) : Reader Opening := do
  unless ← accept '?' do return .capture none
  let some t ← take | fail "unexpected end of pattern"
  match t with
  | .plain ':' => return .plain options
  | .plain '>' => return .atomic
  | .plain '#' =>
      skipComment start ((← get).rest.length + 1)
      return .done none
  | .plain '=' => return .look false false
  | .plain '!' => return .look false true
  | .plain '<' =>
      let some u ← take | fail "unexpected end of pattern"
      if u = .plain '=' then return .look true false
      if u = .plain '!' then return .look true true
      fail s!"unknown extension ?<{u.text}" (u.length + 2)
  | .plain 'P' =>
      if ← accept '<' then
        let name ← takeName '>' "group name"
        checkName name
        return .capture (some name)
      if ← accept '=' then
        let name ← takeName ')' "group name"
        checkName name
        let index ← groupNamed name
        return .done (some (← groupReference options index (name.length + 1)))
      let some u ← take | fail "unexpected end of pattern"
      fail s!"unknown extension ?P{u.text}" (u.length + 2)
  | .plain '(' =>
      let name ← takeName ')' "group name"
      let index ← conditionOf name
      if (← get).behind.isSome then checkReference index 0
      return .condition index
  | t =>
      match t with
      | .plain c =>
          if isOptionLetter c ∨ c = '-' then
            match ← readOptions options c with
            | some options => return .plain options
            | none => return .wholeOptions
          else fail s!"unknown extension ?{t.text}" 2
      | .escaped _ => fail s!"unknown extension ?{t.text}" 3

def sequence (nodes : List Node) : Node :=
  nodes.foldl (fun rest node => match rest with
    | .empty => node
    | rest => .seq node rest) .empty

def isVerboseBlank (c : Char) : Bool := [' ', '\t', '\n', '\r', '\x0b', '\x0c'].contains c

def closeBracket (start : Nat) : Reader Unit := do
  unless ← accept ')' do failAt "missing ), unterminated subpattern" start

/-- The first repetition in a pattern, by kind. -/
def firstRepetition? : Node → Option Greed
  | .repeated _ _ greed _ => some greed
  | .seq a b | .either a b | .conditional _ a b => (firstRepetition? a).or (firstRepetition? b)
  | .group _ body | .atomic body | .look _ _ body => firstRepetition? body
  | _ => none

mutual

/-- Alternatives up to a closing bracket or the end. At the top of a pattern its own options hold. -/
def readAlternatives (fuel : Nat) (options : Options) (top first : Bool) : Reader Node :=
  match fuel with
  | 0 => fail "unexpected end of pattern"
  | fuel + 1 => do
      let node ← readSequence fuel options top first []
      if ← accept '|' then
        let whole := (← get).options
        let options := if top then whole else options
        return .either node (← readAlternatives fuel options top false)
      else return node

/-- A sequence, the nodes read so far being given last first. -/
def readSequence (fuel : Nat) (options : Options) (top first : Bool) (nodes : List Node) : Reader Node :=
  match fuel with
  | 0 => fail "unexpected end of pattern"
  | fuel + 1 => do
      let some t ← peek | return sequence nodes
      if t = .plain '|' ∨ t = .plain ')' then return sequence nodes
      let start := (← get).position
      let _ ← take
      let add (node : Node) := readSequence fuel options top first (node :: nodes)
      let skip := readSequence fuel options top first nodes
      let repeated (least : Nat) (most : Option Nat) : Reader Node := do
        readSequence fuel options top first (← repeatLast start least most nodes)
      if options.verbose ∧ t.isPlain isVerboseBlank then skip
      else if options.verbose ∧ t = .plain '#' then do
        skipLine ((← get).rest.length + 1)
        skip
      else match t with
        | .escaped c => add (← escapeNode options c)
        | .plain '[' => add (← readSet options)
        | .plain '.' => add (.any options.dotAll)
        | .plain '^' => add (.place (if options.multiline then .lineStart else .textStart))
        | .plain '$' => add (.place (if options.multiline then .lineEnd else .lastLineEnd))
        | .plain '?' => repeated 0 (some 1)
        | .plain '*' => repeated 0 none
        | .plain '+' => repeated 1 none
        | .plain '\x7b' => do
            match ← readBounds (start + 1) with
            | some (least, most) => repeated least most
            | none => add (charNode options 123)
        | .plain '(' => do
            match ← readOpening options start with
            | .done none => skip
            | .done (some node) => add node
            | .wholeOptions =>
                if !(top && first) || !nodes.isEmpty then
                  failAt "global flags not at the start of the expression" start
                let options := (← get).options
                readSequence fuel options top first nodes
            | .capture name =>
                let index ← openGroup name
                let body ← readAlternatives fuel options false false
                closeBracket start
                closeGroup index body
                add (.group (some index) body)
            | .plain options =>
                let body ← readAlternatives fuel options false false
                closeBracket start
                add (.group none body)
            | .atomic =>
                let body ← readAlternatives fuel options false false
                closeBracket start
                add (.atomic body)
            | .look behind negated =>
                let outer := (← get).behind
                if behind ∧ outer.isNone then modify fun s => { s with behind := some s.groups }
                let body ← readAlternatives fuel options false false
                if behind then modify fun s => { s with behind := outer }
                closeBracket start
                let width := widthOf (← get).closed body
                add (.look (if behind then some width else none) negated body)
            | .condition index =>
                let yes ← readSequence fuel options false false []
                let no ← if ← accept '|' then do
                    let no ← readSequence fuel options false false []
                    if ← nextIs '|' then fail "conditional backref with more than two branches"
                    pure no
                  else pure .empty
                closeBracket start
                add (.conditional index yes no)
        | .plain c => add (charNode options c.toNat)

end

/-- A look behind must have one width. -/
def hasUnevenLook : Node → Bool
  | .look (some width) _ body => width.least ≠ width.most || hasUnevenLook body
  | .seq a b | .either a b | .conditional _ a b => hasUnevenLook a || hasUnevenLook b
  | .group _ body | .atomic body | .look none _ body | .repeated _ _ _ body => hasUnevenLook body
  | _ => false

def Greed.name : Greed → String
  | .greedy => "MAX_REPEAT"
  | .lazy => "MIN_REPEAT"
  | .possessive => "POSSESSIVE_REPEAT"

def readWhole (fuel : Nat) : Reader Node := do
  guardEnd
  let node ← readAlternatives fuel {} true true
  let s ← get
  if s.unicode ∧ s.options.ascii then throw .conflictingOptions
  if s.rest ≠ [] then fail "unbalanced parenthesis"
  if let some (index, position) := s.conditions.find? fun c => s.groups ≤ c.1 then
    failAt s!"invalid group reference {index}" position
  if let some greed := if s.template then firstRepetition? node else none then
    throw (.invalid s!"internal: unsupported template operator {greed.name}" none)
  if hasUnevenLook node then throw (.invalid "look-behind requires fixed-width pattern" none)
  return node

def Node.read (pattern : String) : Except ReadError Node := do
  let cs := pattern.toList
  return (← (readWhole (3 * cs.length + 4)).run { rest := cs }).1

/-- Where a position lies, by line and column, in a text of several lines. -/
def lineAndColumn (cs : List Char) (position : Nat) : String :=
  let before := cs.take position
  let column := (before.reverse.takeWhile fun c => c ≠ '\n').length + 1
  let line := before.count '\n' + 1
  if cs.contains '\n' then s!" (line {line}, column {column})" else ""

/-- The wording of a mistake in a pattern. -/
def mistake (pattern message : String) (position : Option Nat) : String :=
  match position with
  | none => message
  | some n => s!"{message} at position {n}" ++ lineAndColumn pattern.toList n

end Formwork.Pattern
