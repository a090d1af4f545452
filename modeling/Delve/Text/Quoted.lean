import Delve.Text.Unprintable
/-!
# Quoted characters

A character between single quotes, as error messages show it.
-/

namespace Delve.Text

def escapeChar (c : Char) : List Char :=
  if c = Char.ofNat 0 then ['\\', '0']
  else if c = '\t' then ['\\', 't']
  else if c = '\r' then ['\\', 'r']
  else if c = '\n' then ['\\', 'n']
  else if c = '\'' then ['\\', '\'']
  else if c = '\\' then ['\\', '\\']
  else if isUnprintable c then
    ['\\', 'u', Char.ofNat 0x7B] ++ Nat.toDigits 16 c.toNat ++ [Char.ofNat 0x7D]
  else [c]

def quoteChar (c : Char) : String := .ofList ('\'' :: escapeChar c ++ ['\''])

end Delve.Text
