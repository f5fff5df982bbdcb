namespace PascalFrontEnd.Path

def split : List Char → List (List Char)
  | [] => [[]]
  | '/' :: rest => [] :: split rest
  | c :: rest =>
      match split rest with
      | [] => [[c]]
      | part :: parts => (c :: part) :: parts

def fileName? (path : String) : Option (List Char) :=
  let named := (split path.toList).filter fun part => part ≠ [] ∧ part ≠ ['.']
  match named.getLast? with
  | some ['.', '.'] => none
  | last => last

def extensionOf? (name : List Char) : Option (List Char) :=
  let reversed := name.reverse.takeWhile (· != '.')
  if name.length ≤ reversed.length + 1 then none else some reversed.reverse

def extension? (path : String) : Option String := do
  let name ← fileName? path
  let extension ← extensionOf? name
  return String.ofList extension

end PascalFrontEnd.Path
