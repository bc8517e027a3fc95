import NeighborSearch.Config.Read

/-!
# Texts of the libraries

Some of the texts that the program prints are made by the libraries that it takes its arguments, its
settings and its JSON from. Nothing in the program looks at such a text, so the program is written
over them: a run asks for each of them at most once, and prints it where it belongs.
-/

namespace NeighborSearch

/-- The texts of the libraries. -/
class Wording where
  /-- What is wrong with the text of a query that is no array of numbers. -/
  queryFault : String → String
  /-- What is wrong with settings. The way leads to the value that is refused; it is empty for a file
  that cannot be read. -/
  settingsFault : Config.Way → String
  /-- What is printed for arguments that cannot be understood. -/
  usageFault : List String → String
  /-- How the program is to be called, for arguments that ask for it. -/
  help : List String → String

namespace Command

/-- What is wrong with a text that is no query, in short. -/
def noNumbers : String := "the text is no such array"

/-- How the program is to be called, in short. -/
def usage : String :=
  "Usage: embedsearch [-c FILE] [-v] init [-f] | config | info [--index FILE] [--json] | "
    ++ "search -q FILE [--index FILE] [-k COUNT] [--allow TEXT]... [--deny TEXT]... [--normalize] "
    ++ "[--json]"

end Command

/-- Short texts for a program without the libraries. -/
instance Wording.short : Wording where
  queryFault _ := Command.noNumbers
  settingsFault
    | [] => "the settings file cannot be read"
    | way => "the value of " ++ ".".intercalate way ++ " is not allowed"
  usageFault _ := Command.usage
  help _ := Command.usage

end NeighborSearch
