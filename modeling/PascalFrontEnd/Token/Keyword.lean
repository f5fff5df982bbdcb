import PascalFrontEnd.Token.Kind

namespace PascalFrontEnd.Keyword

def upperCase (text : List Char) : List Char :=
  text.map Char.toUpper

def table : List (String × Kind) :=
  [("BEGIN", .beginWord),
    ("DIV", .integerDivision),
    ("END", .endWord),
    ("INTEGER", .typeName),
    ("PROCEDURE", .procedureWord),
    ("PROGRAM", .programWord),
    ("REAL", .typeName),
    ("VAR", .varWord)]

def kind? (word : List Char) : Option Kind :=
  table.lookup (String.ofList (upperCase word))

end PascalFrontEnd.Keyword
