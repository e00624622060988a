import Ghostbro.Foundation.Text
import Ghostbro.Relay.Wire

/-!
# The HTML normalizer

`html_to_markdown` cuts comments and noise elements out of a document, renders the tags that are
left and collapses blank space.  It works with byte offsets into the text and into lower-case
copies of it.  A slice out of bounds or inside a character panics; here it is `none`, and so is a
loop that runs longer than its input has bytes.
-/

namespace Ghostbro.Relay.Normalize

open Text

/-! ### Characters -/

/-- `u8::is_ascii_whitespace`, and `char::is_ascii_whitespace` on the code of a character. -/
def isAsciiWhitespace (code : ℕ) : Bool :=
  code = 32 || code = 9 || code = 10 || code = 12 || code = 13

/-- `char::to_digit`. -/
def toDigit (radix : ℕ) (symbol : Char) : Option ℕ :=
  let code := symbol.toNat
  let digit :=
    if 48 ≤ code ∧ code ≤ 57 then some (code - 48)
    else if 97 ≤ code ∧ code ≤ 122 then some (code - 87)
    else if 65 ≤ code ∧ code ≤ 90 then some (code - 55)
    else none
  digit.filter (· < radix)

/-- `u32::from_str_radix`. -/
def fromStrRadix (text : List Char) (radix : ℕ) : Option ℕ :=
  let digits := if text.head? = some '+' then text.tail else text
  if digits = [] then none
  else do
    let values ← digits.mapM (toDigit radix)
    let number := values.foldl (fun number digit ↦ number * radix + digit) 0
    if number < 2 ^ 32 then some number else none

/-- `char::from_u32`. -/
def charFromU32 (code : ℕ) : Option Char :=
  if code.isValidChar then some (Char.ofNat code) else none

/-- `str::strip_prefix`. -/
def stripPrefix (pattern text : List Char) : Option (List Char) :=
  if pattern.isPrefixOf text then some (text.drop pattern.length) else none

/-! ### Entities -/

/-- The entities that `decode_entity` knows by name. -/
def namedEntities : List (String × Char) :=
  [("amp", '&'), ("lt", '<'), ("gt", '>'), ("quot", '"'), ("apos", '\''), ("#39", '\''),
    ("nbsp", ' '), ("mdash", '—'), ("ndash", '–'), ("hellip", '…'), ("copy", '©')]

/-- `decode_entity`. -/
def decodeEntity (entity : List Char) : Option Char :=
  match namedEntities.lookup (String.ofList entity) with
  | some symbol => some symbol
  | none => do
    let code ←
      match (stripPrefix ['#', 'x'] entity).or (stripPrefix ['#', 'X'] entity) with
      | some hex => fromStrRadix hex 16
      | none => (stripPrefix ['#'] entity).bind fun digits ↦ fromStrRadix digits 10
    charFromU32 code

/-- The loop of `decode_entities`. -/
def decodeEntitiesLoop : ℕ → List Char → List Char → Option (List Char)
  | 0, _, _ => none
  | fuel + 1, output, rest =>
    match findChar '&' rest with
    | none => some (output ++ rest)
    | some amp => do
      let output := output ++ (← upTo rest amp)
      let tail ← startingAt rest amp
      let bare := do decodeEntitiesLoop fuel (output ++ ['&']) (← startingAt tail 1)
      match findChar ';' tail with
      | some semi =>
        if semi ≤ 10 then
          let entity ← slice tail 1 semi
          let output ←
            match decodeEntity entity with
            | some decoded => some (output ++ [decoded])
            | none => (upTo tail (semi + 1)).map (output ++ ·)
          decodeEntitiesLoop fuel output (← startingAt tail (semi + 1))
        else bare
      | none => bare

/-- `decode_entities`. -/
def decodeEntities (input : List Char) : Option (List Char) :=
  if '&' ∉ input then some input else decodeEntitiesLoop (byteLen input + 1) [] input

/-! ### Comments and elements -/

/-- The loop of `strip_comments`. -/
def stripCommentsLoop : ℕ → List Char → List Char → Option (List Char)
  | 0, _, _ => none
  | fuel + 1, output, rest =>
    match find "<!--".toList rest with
    | none => some (output ++ rest)
    | some start => do
      let output := output ++ (← upTo rest start)
      match find "-->".toList (← startingAt rest start) with
      | some stop => stripCommentsLoop fuel output (← startingAt rest (start + stop + 3))
      | none => some output

/-- `strip_comments`. -/
def stripComments (input : List Char) : Option (List Char) :=
  stripCommentsLoop (byteLen input + 1) [] input

/-- The bytes that may follow the name of an open tag; the end of the text is one, too. -/
def isTagBoundary (after : Option UInt8) : Bool :=
  after ∈ [some 62, some 32, some 47, some 9, some 10, some 13, none]

/-- The loop of `strip_element`. -/
def stripElementLoop (input lowered «open» close : List Char) :
    ℕ → ℕ → List Char → Option (List Char)
  | 0, _, _ => none
  | fuel + 1, idx, output =>
    if idx < byteLen input then do
      match find «open» (← startingAt lowered idx) with
      | some rel =>
        let openAt := idx + rel
        let after := byteAt lowered (openAt + byteLen «open»)
        if isTagBoundary after then
          let output := output ++ (← slice input idx openAt)
          match find close (← startingAt lowered openAt) with
          | some crel =>
            stripElementLoop input lowered «open» close fuel (openAt + crel + byteLen close) output
          | none => stripElementLoop input lowered «open» close fuel (byteLen input) output
        else
          -- a longer name, such as `<styled>`
          let output := output ++ (← slice input idx (openAt + byteLen «open»))
          stripElementLoop input lowered «open» close fuel (openAt + byteLen «open») output
      | none => some (output ++ (← startingAt input idx))
    else some output

/-- `to_ascii_lowercase`. -/
def toAsciiLowercase (text : List Char) : List Char := text.map Char.toLower

/-- `strip_element`. -/
def stripElement (input tag : List Char) : Option (List Char) :=
  stripElementLoop input (toAsciiLowercase input) ('<' :: tag) ('<' :: '/' :: tag ++ ['>'])
    (byteLen input + 1) 0 []

/-- The tags that `strip_noise_blocks` removes. -/
def noiseTags : List String := ["script", "style", "head", "noscript", "svg"]

/-- `strip_noise_blocks`. -/
def stripNoiseBlocks (input : List Char) : Option (List Char) := do
  noiseTags.foldlM (fun output tag ↦ stripElement output tag.toList) (← stripComments input)

/-! ### Tags -/

/-- `heading_level`. -/
def headingLevel (name : List Char) : Option ℕ :=
  match name with
  | ['h', '1'] => some 1
  | ['h', '2'] => some 2
  | ['h', '3'] => some 3
  | ['h', '4'] => some 4
  | ['h', '5'] => some 5
  | ['h', '6'] => some 6
  | _ => none

/-- `tag_name`: the name in lower case, and whether the tag closes. -/
def tagName (rawTag : List Char) : List Char × Bool :=
  let trimmed := trim isWhitespace rawTag
  let (closing, rest) :=
    match trimmed with
    | '/' :: rest => (true, rest)
    | _ => (false, trimmed)
  (toAsciiLowercase (rest.takeWhile Char.isAlphanum), closing)

/-- `parse_attr_value`. -/
def parseAttrValue (region : List Char) : Option (List Char) :=
  match region.dropWhile isWhitespace with
  | '"' :: rest => decodeEntities (rest.takeWhile (· ≠ '"'))
  | '\'' :: rest => decodeEntities (rest.takeWhile (· ≠ '\''))
  | region =>
    decodeEntities (region.takeWhile fun symbol ↦
      !(isAsciiWhitespace symbol.toNat || symbol = '>'))

/-- The loop of `attr_value`; the inner option is the result. -/
def attrValueLoop (rawTag lowered attr : List Char) : ℕ → ℕ → Option (Option (List Char))
  | 0, _ => none
  | fuel + 1, searchFrom => do
    match find attr (← startingAt lowered searchFrom) with
    | none => some none
    | some rel =>
      let «at» := searchFrom + rel
      let beforeOk ←
        if «at» = 0 then some true
        else (byteAt lowered («at» - 1)).map fun byte ↦ isAsciiWhitespace byte.toNat
      let after := (← startingAt lowered («at» + byteLen attr)).dropWhile isWhitespace
      match beforeOk, stripPrefix ['='] after with
      | true, some value =>
        let afterEq := value.dropWhile isWhitespace
        -- the position in the lower-case copy, mapped back to the tag
        if byteLen afterEq ≤ byteLen rawTag then
          let valueOffset := byteLen rawTag - byteLen afterEq
          (parseAttrValue (← startingAt rawTag valueOffset)).map some
        else none
      | _, _ => attrValueLoop rawTag lowered attr fuel («at» + byteLen attr)

/-- `attr_value`. -/
def attrValue (rawTag attr : List Char) : Option (Option (List Char)) :=
  attrValueLoop rawTag (toAsciiLowercase rawTag) attr (byteLen rawTag + 1) 0

/-! ### Rendering -/

/-- `str::char_indices` of a text that starts at an offset. -/
def charIndices : ℕ → List Char → List (ℕ × Char)
  | _, [] => []
  | offset, symbol :: rest => (offset, symbol) :: charIndices (offset + symbol.utf8Size) rest

/-- The end of a run of text, and the characters from the next `<` on. -/
def textRun : ℕ → List (ℕ × Char) → ℕ × List (ℕ × Char)
  | stop, [] => (stop, [])
  | stop, (next, symbol) :: chars =>
    if symbol = '<' then (stop, (next, symbol) :: chars)
    else textRun (next + symbol.utf8Size) chars

/-- The end of a tag body, and the characters behind its `>`. -/
def tagRun : ℕ → List (ℕ × Char) → ℕ × List (ℕ × Char)
  | stop, [] => (stop, [])
  | _, (next, symbol) :: chars =>
    if symbol = '>' then (next, chars) else tagRun (next + symbol.utf8Size) chars

/-- The tags that render as a block break. -/
def blockTags : List String :=
  ["p", "div", "section", "article", "tr", "ul", "ol", "table", "header", "footer", "blockquote",
    "pre"]

/-- The part of `render_tokens` behind one tag body: the pending `href` and the output. -/
def renderTag (rawTag : List Char) (anchorHref : Option (List Char)) (output : List Char) :
    Option (Option (List Char) × List Char) :=
  let (name, closing) := tagName rawTag
  match headingLevel name with
  | some level =>
    if closing then some (anchorHref, output ++ ['\n', '\n'])
    else some (anchorHref, output ++ ['\n', '\n'] ++ List.replicate level '#' ++ [' '])
  | none =>
    let name := String.ofList name
    if name = "li" ∧ closing = false then some (anchorHref, output ++ "\n- ".toList)
    else if name = "br" then some (anchorHref, output ++ ['\n'])
    else if name ∈ blockTags then some (anchorHref, output ++ ['\n', '\n'])
    else if name = "a" then
      if closing then
        match anchorHref with
        | some href =>
          if href ≠ [] then some (none, output ++ [']', '('] ++ href ++ [')'])
          else some (none, output)
        | none => some (none, output)
      else do
        let href := (← attrValue rawTag "href".toList).getD []
        some (some href, if href ≠ [] then output ++ ['['] else output)
    else some (anchorHref, output)

/-- The loop of `render_tokens`. -/
def renderLoop (input : List Char) :
    ℕ → List (ℕ × Char) → Option (List Char) → List Char → Option (List Char)
  | 0, _, _, _ => none
  | _ + 1, [], _, output => some output
  | fuel + 1, (idx, ch) :: chars, anchorHref, output => do
    if ch ≠ '<' then
      let (stop, chars) := textRun (idx + ch.utf8Size) chars
      let text ← decodeEntities (← slice input idx stop)
      renderLoop input fuel chars anchorHref (output ++ text)
    else
      let tagStart := idx + 1
      let (tagEnd, chars) := tagRun tagStart chars
      let (anchorHref, output) ← renderTag (← slice input tagStart tagEnd) anchorHref output
      renderLoop input fuel chars anchorHref output

/-- `render_tokens`. -/
def renderTokens (input : List Char) : Option (List Char) :=
  renderLoop input (byteLen input + 1) (charIndices 0 input) none []

/-! ### White space -/

/-- `str::split_inclusive`. -/
def splitInclusive (separator : Char) : List Char → List (List Char)
  | [] => []
  | symbol :: rest =>
    if symbol = separator then [symbol] :: splitInclusive separator rest
    else
      match splitInclusive separator rest with
      | [] => [[symbol]]
      | line :: lines => (symbol :: line) :: lines

/-- `str::lines`. -/
def lines (text : List Char) : List (List Char) :=
  (splitInclusive '\n' text).map fun line ↦
    if line.getLast? = some '\n' then
      let line := line.dropLast
      if line.getLast? = some '\r' then line.dropLast else line
    else line

/-- `collapse_inline_spaces`. -/
def collapseInlineSpaces (line : List Char) : List Char :=
  let (output, _) := line.foldl (fun (output, lastSpace) ch ↦
    if isWhitespace ch then (if lastSpace then output else output ++ [' '], true)
    else (output ++ [ch], false)) (([] : List Char), false)
  trim isWhitespace output

/-- `collapse_whitespace`.  The count of blank lines is an `i32`, and wraps. -/
def collapseWhitespace (input : List Char) : List Char :=
  let (kept, _) := (lines input).foldl (fun (kept, blankRun) rawLine ↦
    let collapsed := collapseInlineSpaces rawLine
    if collapsed = [] then
      (if blankRun + 1 ≤ 1 ∧ kept ≠ [] then kept ++ [[]] else kept, blankRun + 1)
    else (kept ++ [collapsed], 0)) (([] : List (List Char)), (0 : Int32))
  ['\n'].intercalate (kept.rdropWhile (· = []))

/-- `html_to_markdown`. -/
def htmlToMarkdown (html : List Char) : Option (List Char) := do
  let stripped ← stripNoiseBlocks html
  let rendered ← renderTokens stripped
  some (collapseWhitespace rendered)

example : (htmlToMarkdown "<p>a &amp; b &lt;tag&gt; &#39;q&#39; &#x41;</p>".toList).map
    String.ofList = some "a & b <tag> 'q' A" := by
  decide +kernel

end Ghostbro.Relay.Normalize
