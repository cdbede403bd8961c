import UiSuite.Text.Blank
import UiSuite.Text.Search

/-! Kinds of elements.

A kind has three spellings: its tag in trees (`tag`), its name in messages (`name`),
and the type names a selector may use for it (`typeNames`), whose case does not
count. A tag that no kind has stands for an element of some other kind; a type name
that no kind has names nothing. -/
namespace UiSuite.Element

inductive Kind where
  | text
  | richText
  | textInput
  | button
  | iconButton
  | checkbox
  | switch
  | radio
  | image
  | icon
  | list
  | container
  | other
deriving DecidableEq

namespace Kind

/-- The kinds that have type names. -/
def named : List Kind :=
  [text, richText, textInput, button, iconButton, checkbox, switch, radio, image, icon,
    list, container]

/-- The tag in trees. -/
def tag : Kind → String
  | text => "text"
  | richText => "rich_text"
  | textInput => "text_input"
  | button => "button"
  | iconButton => "icon_button"
  | checkbox => "checkbox"
  | switch => "switch"
  | radio => "radio"
  | image => "image"
  | icon => "icon"
  | list => "list"
  | container => "container"
  | other => "other"

/-- The name in messages. -/
def name : Kind → String
  | text => "Text"
  | richText => "RichText"
  | textInput => "TextInput"
  | button => "Button"
  | iconButton => "IconButton"
  | checkbox => "Checkbox"
  | switch => "Switch"
  | radio => "Radio"
  | image => "Image"
  | icon => "Icon"
  | list => "List"
  | container => "Container"
  | other => "Other"

/-- The type names, in small letters. -/
def typeNames : Kind → List String
  | text => ["text"]
  | richText => ["richtext"]
  | textInput => ["textfield", "textformfield", "input", "textinput"]
  | button => ["button", "elevatedbutton", "textbutton", "outlinedbutton", "filledbutton"]
  | iconButton => ["iconbutton"]
  | checkbox => ["checkbox"]
  | switch => ["switch"]
  | radio => ["radio"]
  | image => ["image"]
  | icon => ["icon"]
  | list => ["listview", "list"]
  | container => ["container"]
  | other => []

/-- The kind of a tag. -/
def ofTag (tag : String) : Kind :=
  (named.find? (·.tag == tag)).getD other

/-- The kind of a type name, in any case and with blanks around it. -/
def ofTypeName? (name : String) : Option Kind :=
  let word := String.ofList (Text.foldCase (Text.trimmed name))
  named.find? fun kind => kind.typeNames.contains word

/-- Whether text can be entered. -/
def acceptsText (kind : Kind) : Bool :=
  kind == textInput

/-- A name in messages is a type name. -/
theorem ofTypeName?_name (kind : Kind) (h : kind ≠ other) : ofTypeName? kind.name = some kind := by
  cases kind <;> first | decide | exact absurd rfl h

theorem ofTag_tag (kind : Kind) : ofTag kind.tag = kind := by
  cases kind <;> decide

end Kind
end UiSuite.Element
