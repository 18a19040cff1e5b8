import ResourceClient.Text.Printable

namespace ResourceClient.Quoted

def escapeChar (c : Char) : List Char :=
  if c = '"' then ['\\', '"']
  else if c = '\\' then ['\\', '\\']
  else if c = '\n' then ['\\', 'n']
  else if c = '\r' then ['\\', 'r']
  else if c = '\t' then ['\\', 't']
  else if c = '\x00' then ['\\', '0']
  else if isPrintable c then [c]
  else ['\\', 'u', '\x7b'] ++ Nat.toDigits 16 c.toNat ++ ['\x7d']

def text (s : String) : List Char := '"' :: s.toList.flatMap escapeChar ++ ['"']

def list (items : List String) : String :=
  .ofList ('[' :: List.intercalate [',', ' '] (items.map text) ++ [']'])

end ResourceClient.Quoted
