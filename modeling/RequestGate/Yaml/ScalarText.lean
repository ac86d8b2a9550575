import RequestGate.Yaml.Cursor

/-!
# The text of YAML scalars

A scalar is written plain, in single or double quotes, or as a block whose lines are indented.
Within plain and quoted scalars a line break is *folded*: a single one becomes a blank, and of
several all but the first remain. A literal block keeps its breaks, a folded block folds those
between two lines of text.

The functions read a scalar from a cursor and give its text and the cursor behind it. Characters are
collected in reverse.
-/

namespace RequestGate.Yaml

/-! ### Gaps -/

/-- The blanks and line breaks between two pieces of text. -/
structure Gap where
  /-- The blanks before the first break. -/
  blanks : List Char := []
  breaks : Nat := 0

/-- What a gap becomes. After a break that has been escaped, further ones remain as they are. -/
def Gap.fold (escaped : Bool) (gap : Gap) : List Char :=
  if escaped then List.replicate gap.breaks '\n'
  else
    match gap.breaks with
    | 0 => gap.blanks
    | 1 => [' ']
    | n + 2 => List.replicate (n + 1) '\n'

/-- Reads a gap, with the number of characters it may have. A tab may not take part in the
indentation of a plain scalar. -/
def readGap (tabsFrom : Int) (escaped : Bool) : Nat → Cursor → Gap → Option (Gap × Cursor)
  | 0, c, gap => some (gap, c)
  | n + 1, c, gap =>
    match c.peek? with
    | some ch =>
      if isBreak ch then readGap tabsFrom escaped n c.next { gap with breaks := gap.breaks + 1 }
      else if isBlank ch then
        if gap.breaks == 0 && !escaped then
          readGap tabsFrom escaped n c.next { gap with blanks := gap.blanks ++ [ch] }
        else if ch == '\t' && (c.column : Int) < tabsFrom then none
        else readGap tabsFrom escaped n c.next gap
      else some (gap, c)
    | none => some (gap, c)

/-! ### Plain scalars -/

/-- A character with a meaning of its own in flow collections. -/
def isFlowIndicator (c : Char) : Bool :=
  c == ',' || c == '[' || c == ']' || c == '\x7b' || c == '\x7d'

/-- Reads the text of a plain scalar up to the next gap, the end of the scalar, or a colon that may
not stand there. -/
def readPlainChunk (inFlow : Bool) : List Char → List Char → Option (List Char)
  | [], done => some done
  | ch :: rest, done =>
    if isBlank ch || isBreak ch then some done
    else if inFlow && ch == ':' && (rest.head?.any fun d => isFlowIndicator d || d == '?') then none
    else if ch == ':' && startsBlank rest then some done
    else if inFlow && isFlowIndicator ch then some done
    else readPlainChunk inFlow rest (ch :: done)

/-- Reads a plain scalar, chunk by chunk. The result also says whether a line break follows. -/
def readPlainFuel (inFlow : Bool) (indent : Int) :
    Nat → Cursor → (gap : Gap) → (done : List Char) → Option (List Char × Bool × Cursor)
  | 0, _, _, _ => none
  | fuel + 1, c, gap, done =>
    let ended := some (done, gap.breaks != 0, c)
    if c.atDocumentMarker || c.peek? == some '#' then ended
    else
      match readPlainChunk inFlow c.rest [] with
      | none => none
      | some chunk =>
        -- the gap belongs to the scalar only if text follows it
        let done := if chunk.isEmpty then done else chunk ++ (gap.fold false).reverse ++ done
        let gap := if chunk.isEmpty then gap else {}
        let c := c.skip chunk.length
        if c.rest.isEmpty || !c.atBlank then some (done, gap.breaks != 0, c)
        else
          match readGap (indent + 1) false c.rest.length c gap with
          | none => none
          | some (gap, c) =>
            if !inFlow && (c.column : Int) < indent + 1 then some (done, gap.breaks != 0, c)
            else readPlainFuel inFlow indent fuel c gap done

/-- Reads a plain scalar. -/
def readPlain? (inFlow : Bool) (indent : Int) (c : Cursor) : Option (String × Bool × Cursor) :=
  (readPlainFuel inFlow indent (c.rest.length + 1) c {} []).map fun (done, broken, c) =>
    (String.ofList done.reverse, broken, c)

/-! ### Quoted scalars -/

/-- The value of a hexadecimal number. -/
def hexValue? (cs : List Char) : Option Nat :=
  cs.foldlM (fun n c =>
    if '0' ≤ c ∧ c ≤ '9' then some (n * 16 + (c.toNat - '0'.toNat))
    else if 'a' ≤ c ∧ c ≤ 'f' then some (n * 16 + (c.toNat - 'a'.toNat + 10))
    else if 'A' ≤ c ∧ c ≤ 'F' then some (n * 16 + (c.toNat - 'A'.toNat + 10))
    else none) 0

/-- The character of an escape without a number. -/
def simpleEscape? : Char → Option Char
  | '0' => some '\x00'
  | 'a' => some '\x07'
  | 'b' => some '\x08'
  | 't' | '\t' => some '\t'
  | 'n' => some '\n'
  | 'v' => some '\x0b'
  | 'f' => some '\x0c'
  | 'r' => some '\r'
  | 'e' => some '\x1b'
  | ' ' => some ' '
  | '"' => some '"'
  | '/' => some '/'
  | '\\' => some '\\'
  | 'N' => some '\u0085'
  | '_' => some '\u00a0'
  | 'L' => some '\u2028'
  | 'P' => some '\u2029'
  | _ => none

/-- The number of digits that an escape is followed by. -/
def escapeDigits : Char → Nat
  | 'x' => 2
  | 'u' => 4
  | 'U' => 8
  | _ => 0

/-- The character of an escape and the number of characters after the backslash. -/
def readEscape? : List Char → Option (Char × Nat)
  | [] => none
  | kind :: rest =>
    match escapeDigits kind with
    | 0 => (simpleEscape? kind).map fun ch => (ch, 1)
    | width =>
      if rest.length < width then none
      else
        (hexValue? (rest.take width)).bind fun n =>
          if n.isValidChar then some (Char.ofNat n, width + 1) else none

/-- Reads a quoted scalar after its opening quote. -/
def readQuotedFuel (quote : Char) : Nat → Cursor → List Char → Option (List Char × Cursor)
  | 0, _, _ => none
  | fuel + 1, c, done =>
    if c.atDocumentMarker then none
    else
      match c.rest with
      | [] => none
      | ch :: rest =>
        let gapFrom (escaped : Bool) (c : Cursor) : Option (List Char × Cursor) :=
          match readGap 0 escaped c.rest.length c {} with
          | none => none
          | some (gap, c) => readQuotedFuel quote fuel c ((gap.fold escaped).reverse ++ done)
        if quote == '\x27' && ch == quote && rest.head? == some quote then
          readQuotedFuel quote fuel (c.skip 2) (quote :: done)
        else if ch == quote then some (done, c.next)
        else if isBlank ch || isBreak ch then gapFrom false c
        else if quote == '"' && ch == '\\' then
          if rest.head? == some '\n' then gapFrom true (c.skip 2)
          else
            match readEscape? rest with
            | some (escaped, width) => readQuotedFuel quote fuel (c.skip (width + 1)) (escaped :: done)
            | none => none
        else readQuotedFuel quote fuel c.next (ch :: done)

/-- Reads a quoted scalar, whose quote is at the cursor. -/
def readQuoted? (quote : Char) (c : Cursor) : Option (String × Cursor) :=
  (readQuotedFuel quote (c.rest.length + 1) c.next []).map fun (done, c) =>
    (String.ofList done.reverse, c)

/-! ### Block scalars -/

/-- What becomes of the line breaks at the end of a block. -/
inductive Chomping where
  | strip
  | clip
  | keep
deriving DecidableEq

/-- Reads the indicators in the first line of a block: chomping and the width of the indentation. -/
def readBlockHeader? : List Char → Option (Chomping × Option Nat × Nat)
  | cs =>
    let chomping? : Char → Option Chomping
      | '+' => some .keep
      | '-' => some .strip
      | _ => none
    let width? (ch : Char) : Option Nat :=
      if '1' ≤ ch ∧ ch ≤ '9' then some (ch.toNat - '0'.toNat) else none
    match cs with
    | [] => some (.clip, none, 0)
    | a :: rest =>
      match chomping? a, width? a with
      | some chomping, _ =>
        match rest.head?.bind width? with
        | some width => some (chomping, some width, 2)
        | none => if rest.head? == some '0' then none else some (chomping, none, 1)
      | none, some width =>
        match rest.head?.bind chomping? with
        | some chomping => some (chomping, some width, 2)
        | none => some (.clip, some width, 1)
      | none, none => if a == '0' then none else some (.clip, none, 0)

/-- Reads empty lines and the indentation before a line of text. `width` is the indentation, if it
is known; `widest` is the greatest column reached. -/
def readBlockBreaks (width : Option Nat) : Nat → Cursor → (breaks widest : Nat) →
    Option (Nat × Nat × Cursor)
  | 0, c, breaks, widest => some (breaks, widest, c)
  | n + 1, c, breaks, widest =>
    let open_ := width.all fun w => c.column < w
    match c.peek? with
    | some ' ' =>
      if open_ then readBlockBreaks width n c.next breaks (max widest (c.column + 1))
      else some (breaks, widest, c)
    | some '\n' => readBlockBreaks width n c.next (breaks + 1) widest
    | some '\t' => if open_ then none else some (breaks, widest, c)
    | _ => some (breaks, widest, c)

/-- Reads the lines of a block. `lead` says whether a break precedes, `trail` counts the empty lines
after it, and `leadBlank` whether the line before began with a blank. -/
def readBlockLines (literal : Bool) (width : Nat) : Nat → Cursor → (lead : Bool) → (trail : Nat) →
    (leadBlank : Bool) → (done : List Char) → Option (List Char × Bool × Nat × Cursor)
  | 0, _, _, _, _, _ => none
  | fuel + 1, c, lead, trail, leadBlank, done =>
    if c.column != width || c.rest.isEmpty then some (done, lead, trail, c)
    else
      let blank := c.peek?.any isBlank
      let folded := !literal && lead && !leadBlank && !blank
      let joint :=
        if folded then (if trail == 0 then [' '] else [])
        else if lead then ['\n'] else []
      let text := c.rest.takeWhile fun ch => !isBreak ch
      let done := text.reverse ++ List.replicate trail '\n' ++ joint ++ done
      let c := c.skip text.length
      let broken := !c.rest.isEmpty
      match readBlockBreaks (some width) c.rest.length c.next 0 0 with
      | none => none
      | some (trail, _, c) => readBlockLines literal width fuel c broken trail blank done

/-- Reads a block scalar, whose indicator is at the cursor. -/
def readBlock? (indent : Int) (c : Cursor) : Option (String × Cursor) := do
  let literal := c.peek? == some '|'
  let c := c.next
  let (chomping, width, used) ← readBlockHeader? c.rest
  let afterHeader := (c.skip used).skipWhile isBlank
  let c := if afterHeader.peek? == some '#' then afterHeader.skipWhile fun _ => true
    else afterHeader
  if !c.rest.isEmpty && c.peek? != some '\n' then none
  else
    let c := c.next
    let known := width.map fun w => (max indent 0).toNat + w
    let (trail, widest, c) ← readBlockBreaks known c.rest.length c 0 0
    -- unless it is given, the indentation is that of the first line of text
    let width := known.getD (max widest (max (indent + 1) 1).toNat)
    let (done, lead, trail, c) ←
      readBlockLines literal width (c.rest.length + 1) c false trail false []
    let ending := match chomping with
      | .strip => []
      | .clip => if lead then ['\n'] else []
      | .keep => List.replicate trail '\n' ++ (if lead then ['\n'] else [])
    some (String.ofList (ending ++ done).reverse, c)

end RequestGate.Yaml
