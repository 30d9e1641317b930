import Formulary.Markup.Attribute

/-!
# Namespaces

An element may bind qualifiers to namespaces for itself and everything inside it.  The empty
qualifier is bound by a default declaration and then holds for elements, not for attributes.  One
qualifier is bound from the start, and two namespaces are reserved.
-/

namespace Formulary.Markup

/-! ## 1. Bindings -/

/-- The bindings in force, the innermost first: qualifiers and the names of their namespaces. -/
abbrev Scope := List (List Char × List Char)

/-- The namespace that is bound from the start. -/
def reservedNamespace : List Char :=
  "http://www.w3.org/XML/1998/namespace".toList

def bindingNamespace : List Char :=
  "http://www.w3.org/2000/xmlns/".toList

def initialScope : Scope :=
  [("xml".toList, reservedNamespace)]

def boundQualifier? (a : Attribute) : Option (List Char) :=
  if a.name.qualifier = [] ∧ a.name.base = "xmlns".toList then some []
  else if a.name.qualifier = "xmlns".toList then some a.name.base
  else none

/-- May the qualifier be bound to the namespace?  The reserved names belong to each other only, a
qualifier cannot be unbound, and a name of a namespace holds no closing brace. -/
def mayBind (qualifier uri : List Char) : Bool :=
  qualifier != "xmlns".toList
    && (qualifier == "xml".toList) == (uri == reservedNamespace)
    && uri != bindingNamespace
    && (qualifier.isEmpty || !uri.isEmpty)
    && !uri.contains '\x7d'

/-- The bindings in force inside a start tag with the given attributes. -/
def bindAll (scope : Scope) : List Attribute → Option Scope
  | [] => some scope
  | a :: rest =>
    match boundQualifier? a with
    | some qualifier =>
      if mayBind qualifier a.value then bindAll ((qualifier, a.value) :: scope) rest else none
    | none => bindAll scope rest

/-! ## 2. Expanded names -/

/-- The namespace of a qualifier; the empty one need not be bound. -/
def namespaceOf? (scope : Scope) (qualifier : List Char) : Option (List Char) :=
  match scope.lookup qualifier with
  | some uri => some uri
  | none => if qualifier.isEmpty then some [] else none

/-- A name with its namespace in braces, if it has one. -/
def inNamespace (uri base : List Char) : String :=
  if uri.isEmpty then String.ofList base
  else String.ofList ('\x7b' :: uri ++ '\x7d' :: base)

def expandedTag? (scope : Scope) (name : Name) : Option String :=
  (namespaceOf? scope name.qualifier).map (inNamespace · name.base)

/-- The attributes that bind nothing, with their namespaces as qualifiers.  An attribute without a
qualifier is in no namespace. -/
def expandedAttributes? (scope : Scope) : List Attribute → Option (List Attribute)
  | [] => some []
  | a :: rest =>
    if (boundQualifier? a).isSome then expandedAttributes? scope rest
    else
      let uri? := if a.name.qualifier.isEmpty then some [] else namespaceOf? scope a.name.qualifier
      match uri?, expandedAttributes? scope rest with
      | some uri, some expanded => some (⟨⟨uri, a.name.base⟩, a.value⟩ :: expanded)
      | _, _ => none

/-- The name and the value of an attribute whose qualifier is its namespace. -/
def Attribute.shown (a : Attribute) : String × String :=
  (inNamespace a.name.qualifier a.name.base, String.ofList a.value)

def allDistinct : List Name → Bool
  | [] => true
  | n :: rest => !rest.contains n && allDistinct rest

/-- What a start tag says of its element, for the name and the attributes in it: the tag of the
element, its attributes, and the bindings inside it. -/
def enter? (scope : Scope) (name : Name) (given : List Attribute) :
    Option (String × List (String × String) × Scope) :=
  if !allDistinct (given.map (·.name)) then none
  else
    match bindAll scope given with
    | none => none
    | some inside =>
      match expandedTag? inside name, expandedAttributes? inside given with
      | some tag, some expanded =>
        if allDistinct (expanded.map (·.name)) then
          some (tag, expanded.map Attribute.shown, inside)
        else none
      | _, _ => none

end Formulary.Markup
