import PullGauge.Text.Hex
import PullGauge.Text.Printable

/-!
# Quoted text

A text shown inside a message stands between single quotes, or between double quotes
when it holds a single quote and no double one. The quote itself, the backslash and
whatever is not printable are escaped.
-/

namespace PullGauge.Text

def quoteMark (t : Text) : Char :=
  if t.contains '\x27' && !t.contains '"' then '"' else '\x27'

def escapeCode (c : Char) : Text :=
  if c.toNat < 0x100 then '\\' :: 'x' :: lowerHex 2 c.toNat
  else if c.toNat < 0x10000 then '\\' :: 'u' :: lowerHex 4 c.toNat
  else '\\' :: 'U' :: lowerHex 8 c.toNat

def escapeChar (mark c : Char) : Text :=
  if c = mark ∨ c = '\\' then ['\\', c]
  else if c = '\t' then ['\\', 't']
  else if c = '\n' then ['\\', 'n']
  else if c = '\r' then ['\\', 'r']
  else if isPrintable c then [c]
  else escapeCode c

def escapeWide (c : Char) : Text := if c.toNat < 0x80 then [c] else escapeCode c

def quoted (t : Text) : Text :=
  let mark := quoteMark t
  mark :: t.flatMap (escapeChar mark) ++ [mark]

def doubleEscape (c : Char) : Text :=
  if c = '"' then ['\\', '"']
  else if c = '\\' then ['\\', '\\']
  else if c = '\n' then ['\\', 'n']
  else if c = '\r' then ['\\', 'r']
  else if c = '\t' then ['\\', 't']
  else if c = '\x0c' then ['\\', 'f']
  else if c = '\x08' then ['\\', 'b']
  else if c < ' ' then '\\' :: 'u' :: lowerHex 4 c.toNat
  else [c]

def doubleQuoted (t : Text) : Text := '"' :: t.flatMap doubleEscape ++ ['"']

def asciiEscape (c : Char) : Text :=
  if c ≤ '~' then doubleEscape c
  else if c.toNat < 0x10000 then '\\' :: 'u' :: lowerHex 4 c.toNat
  else
    '\\' :: 'u' :: lowerHex 4 (0xd800 + (c.toNat - 0x10000) / 0x400) ++
      '\\' :: 'u' :: lowerHex 4 (0xdc00 + (c.toNat - 0x10000) % 0x400)

def asciiQuoted (t : Text) : Text := '"' :: t.flatMap asciiEscape ++ ['"']

end PullGauge.Text
