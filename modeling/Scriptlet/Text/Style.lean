/-! Emphasis in output, which is up to the terminal. -/
namespace Scriptlet.Text

structure Style where
  /-- Shows a part of a program in a message. -/
  strong : String → String
  /-- Shows the mark of an error. -/
  alarming : String → String

def Style.plain : Style := ⟨id, id⟩

end Scriptlet.Text
