import EventScript.Project.Manifest

/-! The version of a distribution. A source checkout says it in its project file; without
one, the version of the installed distribution counts. -/

namespace EventScript.Version

def distributionName : String := "pakscript"

def unknown : String := "0.0.0"

def projectFile : Path :=
  .ofString "pyproject.toml"

def ofTable (distribution : String) (table : Toml.Table) :
    Except ManifestFault (Option String) := do
  let project := (table.lookup "project").getD (.table [])
  match ← project.get? "name" with
  | some (.text name) =>
      if name = distribution then
        match ← project.get? "version" with
        | some (.text version) => return some version
        | _ => return none
      else return none
  | _ => return none

/-- A project file that is missing or that is no TOML states none. -/
def ofCheckout (tree : FileTree) (directory : Place) (distribution : String) :
    Except ManifestFault (Option String) :=
  match tree.readToml directory projectFile with
  | .ok table => ofTable distribution table
  | .error (.unreadable _) | .error .invalidToml => .ok none
  | .error fault => .error fault

/-- Besides the capitals of the Latin alphabet, the sign for kelvin has a small form. -/
def lowerCase (c : Char) : Char :=
  if c = '\u212a' then 'k' else c.toLower

def normalName (name : String) : String :=
  let isSeparator (c : Char) : Bool := c == '-' || c == '_' || c == '.'
  let step (c : Char) (rest : List Char) : List Char :=
    if isSeparator c then
      if rest.head? = some '_' then rest else '_' :: rest
    else lowerCase c :: rest
  String.ofList (name.toList.foldr step [])

def ofInstalled (installed : List (String × String)) (distribution : String) : Option String :=
  (installed.find? fun entry => normalName entry.1 == normalName distribution).map Prod.snd

def ofInstallation (installed : List (String × String)) (distribution : String) : String :=
  (ofInstalled installed distribution).getD unknown

inductive Fault where
  | checkout (fault : ManifestFault)
  | unnamedDistribution
deriving Repr

/-- A distribution without a name is none that could be installed. -/
def current (tree : FileTree) (directory : Place) (installed : List (String × String))
    (distribution : String) : Except Fault String := do
  match ← (ofCheckout tree directory distribution).mapError .checkout with
  | some version => return version
  | none =>
      if distribution = "" then .error .unnamedDistribution
      else return ofInstallation installed distribution

end EventScript.Version
