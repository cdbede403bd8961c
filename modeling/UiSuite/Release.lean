/-! The name of the program and its version, as it tells them. -/
namespace UiSuite.Release

def name : String := "uidsl"

def version : String := "0.1.0"

end UiSuite.Release
