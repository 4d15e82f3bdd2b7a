import InterfaceAudit.Grammar.Expression
import InterfaceAudit.Idl.Declaration
import InterfaceAudit.Idl.Token
import InterfaceAudit.Text.Lines
import InterfaceAudit.Text.Squeeze

/-!
The grammar of interface definition files.
Type strings, defaults and extended attributes are the squeezed source text of their phrase.
-/

namespace InterfaceAudit.Idl

open Grammar
open Grammar.Expression (skipThen thenSkip firstOf present separated)

/-- The tree of a type expression. -/
inductive TypeForm where
  | named (name : String)
  | primitive (words : List String)
  | generic (name : String) (arguments : List TypeForm)
  | union (alternatives : List TypeForm)
  | nullable (inner : TypeForm)
  deriving Repr, Inhabited

/-- A type is used with its tree and with its rendered string. -/
structure TypeUse where
  form : TypeForm
  text : String
  deriving Repr, Inhabited

/-- Types and extended attributes contain each other. -/
inductive Rule : Type → Type where
  | type : Rule TypeUse
  | extAttrs : Rule (List String)

abbrev Phrase := Expression Token Rule

def blank : Phrase (List Char) := .token .blank

def symbol (mark : Char) : Phrase (List Char) := .token (.symbol mark)

def keyword (word : Keyword) : Phrase (List Char) := .token (.keyword word)

/-- A phrase with the blank after it. -/
def spaced {Value : Type} (phrase : Phrase Value) : Phrase Value := thenSkip phrase blank

def name : Phrase String := .map String.ofList (.token .name)

def comma : Phrase (List Char) := skipThen blank (spaced (symbol ','))

def squeezed (text : List Char) : String := String.ofList (Text.squeeze text)

/-- The characters between the first and the last one. -/
def inner (text : List Char) : List Char := (text.drop 1).dropLast

/-! ### Types -/

def wordsOf (text : List Char) : List String :=
  (Text.pieces text).filterMap fun piece =>
    match piece with
    | .word chars => some (String.ofList chars)
    | .mark _ => none

def type : Phrase TypeUse := .rule .type

def unionType : Phrase TypeForm :=
  .map (fun (first, others) => .union ((first :: others).map TypeUse.form))
    (skipThen (spaced (symbol '('))
      (.seq (spaced type)
        (.seq (skipThen (spaced (keyword .or)) (spaced type))
          (thenSkip (.many (skipThen (spaced (keyword .or)) (spaced type))) (symbol ')'))) |>
        .map fun (first, second, others) => (first, second :: others)))

def genericType : Phrase TypeForm :=
  .map (fun (name, first, others) => .generic name ((first :: others).map TypeUse.form))
    (.seq (thenSkip (spaced name) (spaced (symbol '<')))
      (.seq (spaced type)
        (thenSkip (.many (skipThen (spaced (symbol ',')) (spaced type))) (symbol '>'))))

def primitiveType : Phrase TypeForm :=
  .map (fun text => .primitive (wordsOf text)) (.token .primitive)

def namedType : Phrase TypeForm := .map .named name

def typeBody : Phrase TypeForm :=
  firstOf unionType [genericType, primitiveType, namedType]

/-- The extended attributes of a type are no part of its string. -/
def useOfType (body : List Char × TypeForm) (isNullable : Bool) : TypeUse :=
  let text := squeezed body.1
  if isNullable then ⟨.nullable body.2, text ++ "?"⟩ else ⟨body.2, text⟩

/-! ### Arguments -/

def constantValue : Phrase (List Char) :=
  firstOf (keyword .yes) [keyword .no, .token .number]

def emptyPair (opening closing : Char) : Phrase (List Char) :=
  skipThen (spaced (symbol opening)) (symbol closing)

def defaultValue : Phrase (List Char) :=
  firstOf constantValue
    [.token .quoted, emptyPair '[' ']', emptyPair '\x7b' '\x7d', keyword .null]

/-- The quotes of a quoted default are dropped after squeezing. -/
def defaultText (source : List Char) : String :=
  let text := Text.squeeze source
  String.ofList (if text.head? == some '\x22' then inner text else text)

def «default» : Phrase String :=
  skipThen (spaced (symbol '='))
    (.map (fun (source, _) => defaultText source) (.source defaultValue))

def optionalArgument : Phrase Argument :=
  .map (fun (type, name, value) =>
      { name, type := type.text, isOptional := true, default := value })
    (skipThen (spaced (keyword .optional))
      (.seq (spaced type) (.seq (spaced name) (.optional «default»))))

def variadicArgument : Phrase Argument :=
  .map (fun (type, name) => { name, type := type.text, isVariadic := true })
    (.seq (spaced type) (skipThen (spaced (.token .ellipsis)) name))

def requiredArgument : Phrase Argument :=
  .map (fun (type, name) => { name, type := type.text }) (.seq (spaced type) name)

/-- Extended attributes may stand in front of a phrase. -/
def attributed {Value : Type} (phrase : Phrase Value) : Phrase (List String × Value) :=
  .map (fun (extAttrs, value) => (extAttrs.getD [], value))
    (.seq (.optional (spaced (.rule .extAttrs))) phrase)

def argument : Phrase Argument :=
  .map (fun (extAttrs, argument) => { argument with extAttrs })
    (attributed (firstOf optionalArgument [variadicArgument, requiredArgument]))

def parameters : Phrase (List Argument) :=
  skipThen (spaced (symbol '('))
    (thenSkip (spaced (.map (·.getD []) (.optional (separated comma argument)))) (symbol ')'))

/-! ### Extended attributes -/

def extAttrItem : Phrase (List Char) :=
  firstOf (.token .quoted) [constantValue, .token .name]

def extAttrList : Phrase (List Char) :=
  .map Prod.fst (.source
    (skipThen (spaced (symbol '(')) (thenSkip (spaced (separated comma extAttrItem)) (symbol ')'))))

def extAttrValue : Phrase (List Char) :=
  firstOf extAttrList [.token .quoted, constantValue, .token .name]

def extAttrRight : Phrase Unit :=
  .choice (.map (fun _ => ()) parameters)
    (.map (fun _ => ())
      (skipThen (spaced (symbol '=')) (.seq (spaced extAttrValue) (.optional parameters))))

/-- The blank in front of an absent right side belongs to the source of the attribute. -/
def extAttr : Phrase String :=
  .map (fun (source, _) => squeezed source) (.source (.seq (spaced name) (.optional extAttrRight)))

def extAttrSection : Phrase (List String) :=
  skipThen (spaced (symbol '[')) (thenSkip (spaced (separated comma extAttr)) (symbol ']'))

def typeRule : Phrase TypeUse :=
  .map (fun (_, body, mark) => useOfType body mark)
    (.seq (.optional (spaced extAttrSection))
      (.seq (.source typeBody) (present (skipThen blank (symbol '?')))))

def Rule.body : {Result : Type} → Rule Result → Phrase Result
  | _, .type => typeRule
  | _, .extAttrs => extAttrSection

def grammar : Grammar Token Rule where
  scan := Token.scan
  body := Rule.body

/-! ### Members -/

def semicolon : Phrase (List Char) := symbol ';'

def constructorMember : Phrase Member :=
  .map (fun parameters => .constructor { parameters })
    (skipThen (spaced (keyword .constructor)) (thenSkip (spaced parameters) semicolon))

def constantMember : Phrase Member :=
  .map (fun (type, name, value) =>
      .constant { name, type := type.text, value := String.ofList value })
    (skipThen (spaced (keyword .const))
      (.seq (spaced type)
        (.seq (thenSkip (spaced name) (spaced (symbol '=')))
          (thenSkip (spaced constantValue) semicolon))))

def iterableMember : Phrase Member :=
  .map (fun (isAsync, first, second) =>
      .collection
        { kind := if isAsync then .asyncIterable else .iterable
          types := (first :: second.toList).map TypeUse.text })
    (.seq (present (spaced (keyword .async)))
      (skipThen (spaced (keyword .iterable)) (skipThen (spaced (symbol '<'))
        (.seq (spaced type)
          (thenSkip (.optional (skipThen (spaced (symbol ',')) (spaced type)))
            (.seq (spaced (symbol '>'))
              (.seq (.optional (spaced parameters)) semicolon)))))))

def maplikeMember : Phrase Member :=
  .map (fun (readonly, key, value) =>
      .collection { kind := .maplike, types := [key.text, value.text], readonly })
    (.seq (present (spaced (keyword .readonly)))
      (skipThen (spaced (keyword .maplike)) (skipThen (spaced (symbol '<'))
        (.seq (thenSkip (spaced type) (spaced (symbol ',')))
          (thenSkip (spaced type) (.seq (spaced (symbol '>')) semicolon))))))

def setlikeMember : Phrase Member :=
  .map (fun (readonly, type) => .collection { kind := .setlike, types := [type.text], readonly })
    (.seq (present (spaced (keyword .readonly)))
      (skipThen (spaced (keyword .setlike)) (skipThen (spaced (symbol '<'))
        (thenSkip (spaced type) (.seq (spaced (symbol '>')) semicolon)))))

/-- A qualifier is known by its trimmed source, so one with a comment after it is another word. -/
def qualifier : Phrase String :=
  .map (fun (source, _) => String.ofList (Text.trim source))
    (.source (spaced (firstOf (keyword .static)
      [keyword .stringifier, keyword .readonly, keyword .inherit, keyword .getter,
        keyword .setter, keyword .deleter])))

def attributeMember : Phrase Member :=
  .map (fun (qualifiers, type, name) =>
      .attribute
        { name
          type := type.text
          readonly := qualifiers.contains "readonly"
          isStatic := qualifiers.contains "static"
          inherit := qualifiers.contains "inherit" })
    (.seq (.many qualifier)
      (skipThen (spaced (keyword .attribute))
        (.seq (spaced type) (thenSkip (spaced name) semicolon))))

def operationMember : Phrase Member :=
  .map (fun (qualifiers, type, name, parameters) =>
      .operation
        { name
          returnType := type.text
          parameters
          isStatic := qualifiers.contains "static"
          special := qualifiers.find? (· != "static") })
    (.seq (.many qualifier)
      (.seq (spaced type)
        (.seq (spaced (.optional name)) (thenSkip (spaced parameters) semicolon))))

/-- A bare stringifier declares no member. -/
def bareStringifier : Phrase (Option Member) :=
  .map (fun _ => none) (.seq (spaced (keyword .stringifier)) semicolon)

def member : Phrase (Option Member) :=
  .map (fun (extAttrs, member) => member.map (Member.withExtAttrs extAttrs))
    (attributed (.choice
      (.map some (firstOf constructorMember
        [constantMember, iterableMember, maplikeMember, setlikeMember, attributeMember,
          operationMember]))
      bareStringifier))

/-- A body is closed by a brace and a semicolon. -/
def body {Value : Type} (content : Phrase Value) : Phrase Value :=
  skipThen (spaced (symbol '\x7b'))
    (thenSkip content (.seq (spaced (symbol '\x7d')) semicolon))

def members : Phrase (List Member) :=
  .map (fun members => members.filterMap id) (body (.many (spaced member)))

/-! ### Definitions -/

def inheritance : Phrase (Option String) :=
  .optional (skipThen (spaced (symbol ':')) name)

def callbackInterface : Phrase Definition :=
  .map (fun (name, members) => .interface { name, members, kind := .callback })
    (skipThen (.seq (spaced (keyword .callback)) (spaced (keyword .interface)))
      (.seq (spaced name) members))

def callbackFunction : Phrase Definition :=
  .map (fun (name, type, parameters) => .callback { name, returnType := type.text, parameters })
    (skipThen (spaced (keyword .callback))
      (.seq (thenSkip (spaced name) (spaced (symbol '=')))
        (.seq (spaced type) (thenSkip (spaced parameters) semicolon))))

def mixin : Phrase Definition :=
  .map (fun (name, members) => .interface { name, members, kind := .mixin })
    (skipThen (.seq (spaced (keyword .interface)) (spaced (keyword .mixin)))
      (.seq (spaced name) members))

def interface : Phrase Definition :=
  .map (fun (name, inheritance, members) => .interface { name, inheritance, members })
    (skipThen (spaced (keyword .interface))
      (.seq (spaced name) (.seq (spaced inheritance) members)))

def namespaceDefinition : Phrase Definition :=
  .map (fun (name, members) => .interface { name, members, kind := .namespace })
    (skipThen (spaced (keyword .namespace)) (.seq (spaced name) members))

def requiredField : Phrase Field :=
  .map (fun (type, name) => { name, type := type.text, required := true })
    (skipThen (spaced (keyword .required))
      (.seq (spaced type) (thenSkip (spaced name) semicolon)))

def optionalField : Phrase Field :=
  .map (fun (type, name, value) => { name, type := type.text, default := value })
    (.seq (spaced type)
      (.seq (spaced name) (thenSkip (spaced (.optional «default»)) semicolon)))

def field : Phrase Field :=
  .map (fun (extAttrs, field) => { field with extAttrs })
    (attributed (.choice requiredField optionalField))

def dictionary : Phrase Definition :=
  .map (fun (name, inheritance, fields) => .dictionary { name, inheritance, fields })
    (skipThen (spaced (keyword .dictionary))
      (.seq (spaced name) (.seq (spaced inheritance) (body (.many (spaced field))))))

/-- A quoted value is kept as it is written. -/
def enumerationValue : Phrase String :=
  .map (fun text => String.ofList (inner text)) (.token .quoted)

def enumeration : Phrase Definition :=
  .map (fun (name, values) => .enumeration { name, values })
    (skipThen (spaced (keyword .enumeration))
      (.seq (spaced name)
        (body (thenSkip (separated comma enumerationValue)
          (spaced (.optional (skipThen blank (symbol ','))))))))

def typedef : Phrase Definition :=
  .map (fun (type, name) => .typedef { name, type := type.text })
    (skipThen (spaced (keyword .typedef))
      (.seq (spaced type) (thenSkip (spaced name) semicolon)))

def inclusion : Phrase Definition :=
  .map (fun (target, mixin) => .inclusion { target, mixin })
    (.seq (thenSkip (spaced name) (spaced (keyword .includes)))
      (thenSkip (spaced name) semicolon))

/-- A definition is found some line feeds after the start of its phrase and stretches over some
more; its extended attributes and the word for a part come before it. -/
structure Found where
  lead : Nat
  extent : Nat
  definition : Definition
  deriving Repr

def located (phrase : Phrase Definition) : Phrase Found :=
  .map (fun (source, definition) => ⟨0, Text.newlines source, definition⟩) (.source phrase)

def partialDefinition : Phrase Found :=
  .map (fun ((lead, _), found) =>
      { found with
        lead := Text.newlines lead + found.lead
        definition := found.definition.asPartial })
    (.seq (.source (spaced (keyword .partial)))
      (located (firstOf mixin [interface, dictionary, namespaceDefinition])))

def declaration : Phrase Found :=
  firstOf (located (firstOf callbackInterface [callbackFunction, mixin, interface]))
    [partialDefinition,
      located (firstOf namespaceDefinition [dictionary, enumeration, typedef, inclusion])]

def definition : Phrase Found :=
  .map (fun ((lead, extAttrs), found) =>
      { found with
        lead := Text.newlines lead + found.lead
        definition := found.definition.withExtAttrs (extAttrs.getD []) })
    (.seq (.source (.optional (spaced (.rule .extAttrs)))) declaration)

/-- The blank at the start, and every definition with the blank after it. -/
def file : Phrase ((List Char × List Char) × List (List Char × Found)) :=
  .seq (.source blank) (.many (.source (spaced definition)))

end InterfaceAudit.Idl
