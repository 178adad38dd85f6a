import Gregg.Lib.Lines
import Gregg.RustStd

/-!
# Rendering remote command output as inert text

Text from a monitored machine is hostile terminal input. Every control in it is made visible, and
the lines of a body are bounded by what the caller can show.
-/

namespace Gregg.Tui

/-- Columns a tab expands to. -/
def TAB_CELLS : List Char :=
  [' ', ' ', ' ', ' ']

/-- Sanitized remote text plus what was changed to get there. -/
structure Sanitized where
  text : List Char
  /-- Whether any control character had to be made visible. -/
  escaped : Bool
  /-- Whether lines were dropped because of the bound. -/
  droppedLines : Bool
  deriving DecidableEq

/-- Caret notation for a byte in the printable ASCII range. -/
def caret (code : ℕ) : List Char :=
  ['^', Char.ofNat code]

/-- The printable, inert rendering of one control character, `none` for one that is safe or is
handled by the loop. -/
def escape (character : Char) : Option (List Char) :=
  let code := character.toNat
  if character = '\n' ∨ character = '\t' then none
  else if code ≤ 0x1f then some (caret (code + 0x40))
  else if code = 0x7f then some ['^', '?']
  else if 0x80 ≤ code ∧ code ≤ 0x9f then some (['M', '-'] ++ caret (code - 0x40))
  else if (0x202a ≤ code ∧ code ≤ 0x202e) ∨ (0x2066 ≤ code ∧ code ≤ 0x2069) ∨ code = 0x200e ∨
      code = 0x200f then
    some (['\\', 'u'] ++ Text.formatHex 4 code)
  else if code = 0x2028 ∨ code = 0x2029 then some (['\\', 'u'] ++ Text.formatHex 4 code)
  else none

namespace Sanitized

/-- A line added to the text, after those that were emitted before. -/
def push (out : Sanitized) (emitted : ℕ) (line : List Char) (lineEscaped : Bool) : Sanitized :=
  { out with
    text := out.text ++ (if emitted > 0 then ['\n'] else []) ++ line
    escaped := out.escaped || lineEscaped }

/-- The loop of `sanitize_inner`, given the lines it emitted and the line it is in. There is no
bound where the caller passes `usize::MAX`, which no text has as many lines as. -/
def loop (maxLines : Option ℕ) (newlineBreaksLine : Bool) (out : Sanitized) (current : List Char)
    (currentEscaped : Bool) (emitted : ℕ) : List Char → Sanitized
  | [] =>
      if current.isEmpty then out
      else if newlineBreaksLine && some emitted == maxLines then { out with droppedLines := true }
      else out.push emitted current currentEscaped
  | character :: rest =>
      if character = '\n' then
        if newlineBreaksLine then
          if some emitted = maxLines then { out with droppedLines := true }
          else
            loop maxLines newlineBreaksLine (out.push emitted current currentEscaped) [] false
              (emitted + 1) rest
        else loop maxLines newlineBreaksLine out (current ++ ['^', 'J']) true emitted rest
      else if character = '\r' then
        -- The pair of a carriage return and a line feed is one line break.
        if newlineBreaksLine && rest.head? == some '\n' then
          loop maxLines newlineBreaksLine out current currentEscaped emitted rest
        else loop maxLines newlineBreaksLine out (current ++ ['^', 'M']) true emitted rest
      else if character = '\t' then
        loop maxLines newlineBreaksLine out (current ++ TAB_CELLS) currentEscaped emitted rest
      else
        match escape character with
        | some replacement =>
            loop maxLines newlineBreaksLine out (current ++ replacement) true emitted rest
        | none =>
            loop maxLines newlineBreaksLine out (current ++ [character]) currentEscaped emitted rest

/-- The sanitized text split into lines. -/
def lines (sanitized : Sanitized) : List (List Char) :=
  if sanitized.text.isEmpty then [] else sanitized.text.splitOn '\n'

end Sanitized

def sanitizeInner (text : List Char) (maxLines : Option ℕ) (newlineBreaksLine : Bool) :
    Sanitized :=
  Sanitized.loop maxLines newlineBreaksLine ⟨[], false, false⟩ [] false 0 text

/-- Make a text safe for terminal cells, keeping a bounded number of its lines. -/
def sanitize (text : List Char) (maxLines : Option ℕ) : Sanitized :=
  sanitizeInner text maxLines true

/-- Make a text safe for a field of exactly one terminal row. -/
def sanitizeSingleLine (text : List Char) : Sanitized :=
  sanitizeInner text none false

end Gregg.Tui
