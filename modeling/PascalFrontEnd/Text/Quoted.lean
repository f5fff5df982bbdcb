import PascalFrontEnd.Text.Unprintable

namespace PascalFrontEnd.Quoted

def codePoint (c : Char) : List Char :=
  ['\\', 'u', '\x7b'] ++ Nat.toDigits 16 c.toNat ++ ['\x7d']

def encodeChar (c : Char) : List Char :=
  match c with
  | '\x00' => ['\\', '0']
  | '\t' => ['\\', 't']
  | '\n' => ['\\', 'n']
  | '\r' => ['\\', 'r']
  | '"' => ['\\', '"']
  | '\\' => ['\\', '\\']
  | c => if isUnprintable c then codePoint c else [c]

def encode (text : String) : String :=
  String.ofList (['"'] ++ text.toList.flatMap encodeChar ++ ['"'])

end PascalFrontEnd.Quoted
