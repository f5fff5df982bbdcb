namespace PascalFrontEnd.Plain

def isControl (c : Char) : Bool :=
  c == '\x7f' ||
    (c.toNat < 0x20 && c != '\t' && c != '\n' && c != '\x0c' && c != '\r')

def isIntermediate (c : Char) : Bool :=
  0x20 ≤ c.toNat && c.toNat ≤ 0x2f

/-- Drop control; `escaping` is set inside an escape sequence, which the first
character that is not intermediate ends. -/
def strip (escaping : Bool) : List Char → List Char
  | [] => []
  | '\x1b' :: rest => strip true rest
  | c :: rest =>
      if escaping then strip (isIntermediate c || isControl c) rest
      else if isControl c then strip false rest
      else c :: strip false rest

def text (text : String) : String :=
  String.ofList (strip false text.toList)

end PascalFrontEnd.Plain
