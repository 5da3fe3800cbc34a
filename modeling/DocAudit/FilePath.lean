import DocAudit.Segments

/- File paths: names separated by slashes, in which empty segments and single dots mean nothing and
   two dots mean the parent directory. A path that starts with a slash is absolute. -/
namespace DocAudit
namespace FilePath

def separator : Char := '/'

inductive Part where
  | parent
  | name (s : String)
deriving DecidableEq, Repr

def isAbsolute (path : String) : Bool := path.toList.head? == some separator

def partOf? (segment : String) : Option Part :=
  if segment = "" ∨ segment = "." then none
  else if segment = ".." then some .parent
  else some (.name segment)

def parts (path : String) : List Part := (Segments.split separator path).filterMap partOf?

/-- A path taken from a directory; an absolute one stands for itself. After a directory that is
    empty or ends with a separator there is no need for one. -/
def join (directory path : String) : String :=
  if isAbsolute path then path
  else if directory = "" ∨ directory.toList.getLast? = some separator then directory ++ path
  else directory ++ String.singleton separator ++ path

def fileName? (path : String) : Option String :=
  match (parts path).getLast? with
  | some (.name s) => some s
  | _ => none

/-- What follows the last dot of a file name, unless nothing stands before that dot. -/
def extension? (path : String) : Option String :=
  (fileName? path).bind fun name =>
    match (Segments.split '.' name).reverse with
    | last :: first :: rest => if rest = [] ∧ first = "" then none else some last
    | _ => none

end FilePath
end DocAudit
