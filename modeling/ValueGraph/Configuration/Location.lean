/-
  Where the configuration file lies when its name is not given.

  It lies in the directory for configuration files: the one that the
  environment names, if that is an absolute path, and otherwise `.config` in
  the home directory.  The home directory is the one that the environment
  names, unless that is empty, or the one of the account.
-/

namespace ValueGraph.Configuration

/-- A path below a directory. -/
def below (directory path : String) : String :=
  if directory.endsWith "/" then directory ++ path else directory ++ "/" ++ path

/-- The name of the configuration file, if there is a home directory. -/
def location? (home account directory : Option String) : Option String :=
  ((home.filter (· ≠ "")).or account).map fun home =>
    let directory := match directory with
      | some d => if d.startsWith "/" then d else below home ".config"
      | none => below home ".config"
    below (below directory "rdeep") "rdeep.toml"

end ValueGraph.Configuration
