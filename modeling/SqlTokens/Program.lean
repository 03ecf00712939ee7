/-!
# The program's name

How the program calls itself, where it tells its version and where its log starts.
-/

namespace SqlTokens.Program

/-- The name of the program. -/
def name : String := "sqllexer"

/-- The version of the program. -/
def version : String := "0.1.0"

/-- The name and the version. -/
def title : String := name ++ " " ++ version

end SqlTokens.Program
