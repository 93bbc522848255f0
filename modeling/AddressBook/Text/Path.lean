import AddressBook.Text.Basic

/-! Paths of files: parts between slashes, of which a dot leads nowhere and two dots lead back. -/

namespace AddressBook.Text.Path

/-- Follows one more part of a path; the parts so far are held last to first. Beyond the root there is
nothing to lead back to. -/
def follow (isAbsolute : Bool) (done : List String) (part : String) : List String :=
  if part = "" || part = "." then done
  else if part = ".." then
    match done with
    | [] => if isAbsolute then [] else [".."]
    | last :: before => if last = ".." then ".." :: done else before
  else part :: done

/-- The path without the parts that lead nowhere or are led back from. -/
def normal (path : String) : String :=
  let isAbsolute := path.toList.head? == some '/'
  let parts := ((splitOn '/' path).foldl (follow isAbsolute) []).reverse
  if isAbsolute then "/" ++ join "/" parts else if parts.isEmpty then "." else join "/" parts

end AddressBook.Text.Path
