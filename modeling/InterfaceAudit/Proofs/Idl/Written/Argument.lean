import InterfaceAudit.Proofs.Idl.Written.Type
import InterfaceAudit.Proofs.Idl.Written.Value

/-!
Arguments and extended attributes of a written text, which contain each other.
-/

namespace InterfaceAudit.Idl

open Grammar
open Grammar.Expression (skipThen thenSkip firstOf separated)

/-- An argument without its extended attributes. -/
inductive ArgumentCore where
  | required (type : TypeTree) (name : Identifier)
  | variadic (type : TypeTree) (name : Identifier)
  | optional (type : TypeTree) (name : Identifier) (default : Option DefaultTree)

def ArgumentCore.type : ArgumentCore → TypeTree
  | .required type _ => type
  | .variadic type _ => type
  | .optional type _ _ => type

mutual

/-- An extended attribute has a value, parameters, both or neither. -/
inductive ExtAttrTree where
  | plain (name : Identifier) (value : Option ExtAttrValue)
  | call (name : Identifier) (value : Option ExtAttrValue) (parameters : List ArgumentTree)

inductive ArgumentTree where
  | mk (extAttrs : List ExtAttrTree) (core : ArgumentCore)

end

/-! ### Lexemes -/

def defaultLexemes : Option DefaultTree → List Lexeme
  | none => []
  | some default => .mark .equals :: default.lexemes

def valueLexemes : Option ExtAttrValue → List Lexeme
  | none => []
  | some value => .mark .equals :: value.lexemes

def ArgumentCore.lexemes : ArgumentCore → List Lexeme
  | .required type name => type.lexemes ++ [.name name]
  | .variadic type name => type.lexemes ++ [.ellipsis, .name name]
  | .optional type name default =>
    .keyword .optional :: (type.lexemes ++ (.name name :: defaultLexemes default))

mutual

def ExtAttrTree.lexemes : ExtAttrTree → List Lexeme
  | .plain name value => .name name :: valueLexemes value
  | .call name value parameters =>
    .name name :: (valueLexemes value ++ parameterLexemes parameters)

def ArgumentTree.lexemes : ArgumentTree → List Lexeme
  | .mk extAttrs core => sectionLexemes extAttrs ++ core.lexemes

/-- A section without extended attributes is left out. -/
def sectionLexemes : List ExtAttrTree → List Lexeme
  | [] => []
  | extAttr :: others =>
    .mark .openBracket :: (extAttr.lexemes ++ (extAttrsBehind others ++ [.mark .closeBracket]))

def extAttrsBehind : List ExtAttrTree → List Lexeme
  | [] => []
  | extAttr :: others => .mark .comma :: (extAttr.lexemes ++ extAttrsBehind others)

def parameterLexemes : List ArgumentTree → List Lexeme
  | [] => [.mark .openParenthesis, .mark .closeParenthesis]
  | argument :: others =>
    .mark .openParenthesis ::
      (argument.lexemes ++ (argumentsBehind others ++ [.mark .closeParenthesis]))

def argumentsBehind : List ArgumentTree → List Lexeme
  | [] => []
  | argument :: others => .mark .comma :: (argument.lexemes ++ argumentsBehind others)

end

/-! ### Soundness -/

def valueSound : Option ExtAttrValue → Bool
  | none => true
  | some value => value.sound

mutual

/-- Everything inside of a sound extended attribute is sound. -/
def ExtAttrTree.sound : ExtAttrTree → Bool
  | .plain _ value => valueSound value
  | .call _ value parameters => valueSound value && argumentsSound parameters

def ArgumentTree.sound : ArgumentTree → Bool
  | .mk extAttrs core => extAttrsSound extAttrs && core.type.sound

def extAttrsSound : List ExtAttrTree → Bool
  | [] => true
  | extAttr :: others => extAttr.sound && extAttrsSound others

def argumentsSound : List ArgumentTree → Bool
  | [] => true
  | argument :: others => argument.sound && argumentsSound others

end

/-! ### Declarations -/

/-- An extended attribute is kept as its squeezed spelling. -/
def ExtAttrTree.text (extAttr : ExtAttrTree) : String := String.ofList (spelled extAttr.lexemes)

def ArgumentCore.declared : ArgumentCore → Argument
  | .required type name => { name := String.ofList name.chars, type := type.text }
  | .variadic type name =>
    { name := String.ofList name.chars, type := type.text, isVariadic := true }
  | .optional type name default =>
    { name := String.ofList name.chars
      type := type.text
      isOptional := true
      default := default.map DefaultTree.text }

def ArgumentTree.declared : ArgumentTree → Argument
  | .mk extAttrs core => { core.declared with extAttrs := extAttrs.map ExtAttrTree.text }

/-! ### Lists -/

/-- The attributes behind the first one are written each behind a comma. -/
theorem extAttrsBehind_eq (extAttrs : List ExtAttrTree) :
    extAttrsBehind extAttrs = behindCommas ExtAttrTree.lexemes extAttrs := by
  induction extAttrs with
  | nil => rfl
  | cons extAttr others inductionHypothesis =>
    rw [extAttrsBehind, inductionHypothesis]
    rfl

/-- The arguments behind the first one are written each behind a comma. -/
theorem argumentsBehind_eq (arguments : List ArgumentTree) :
    argumentsBehind arguments = behindCommas ArgumentTree.lexemes arguments := by
  induction arguments with
  | nil => rfl
  | cons argument others inductionHypothesis =>
    rw [argumentsBehind, inductionHypothesis]
    rfl

/-- A list of attributes is sound when each of them is. -/
theorem extAttrsSound_eq (extAttrs : List ExtAttrTree) :
    extAttrsSound extAttrs = extAttrs.all ExtAttrTree.sound := by
  induction extAttrs with
  | nil => rfl
  | cons extAttr others inductionHypothesis =>
    rw [extAttrsSound, inductionHypothesis, List.all_cons]

/-- A list of arguments is sound when each of them is. -/
theorem argumentsSound_eq (arguments : List ArgumentTree) :
    argumentsSound arguments = arguments.all ArgumentTree.sound := by
  induction arguments with
  | nil => rfl
  | cons argument others inductionHypothesis =>
    rw [argumentsSound, inductionHypothesis, List.all_cons]

/-! ### Arguments -/

/-- The alternatives of an argument behind its extended attributes. -/
def argumentAlternatives : Phrase Argument :=
  firstOf optionalArgument [variadicArgument, requiredArgument]

/-- Without an equals sign there is no default. -/
theorem read_default_none {others : List Lexeme}
    (noEquals : grammar.scan (.symbol '=') (written others) = none) :
    grammar.read Idl.default (written others) = none := by
  simp [Idl.default, noEquals]

/-- An argument with a sound type is read as it is declared, in each of its three forms. -/
theorem read_argumentCore {core : ArgumentCore} (isSound : core.type.sound = true)
    {others : List Lexeme} (noEquals : grammar.scan (.symbol '=') (written others) = none) :
    grammar.read (spaced argumentAlternatives) (written (core.lexemes ++ others)) =
      some (core.declared, written others) := by
  cases core with
  | required type name =>
    have typeSound : type.sound = true := isSound
    simp [argumentAlternatives, firstOf, read_choice, read_seq, optionalArgument,
      variadicArgument, requiredArgument, ArgumentCore.lexemes, ArgumentCore.declared,
      TypeTree.use, typeSound]
  | variadic type name =>
    have typeSound : type.sound = true := isSound
    simp [argumentAlternatives, firstOf, read_choice, read_seq, optionalArgument,
      variadicArgument, ArgumentCore.lexemes, ArgumentCore.declared, TypeTree.use, typeSound]
  | optional type name default =>
    have typeSound : type.sound = true := isSound
    cases default with
    | none =>
      have noDefault := read_optional_of_none _ (read_default_none noEquals)
      simp [argumentAlternatives, firstOf, read_choice, read_seq, optionalArgument,
        ArgumentCore.lexemes, ArgumentCore.declared, TypeTree.use, defaultLexemes, noDefault,
        typeSound]
    | some default =>
      have found := read_optional_of_some _ (read_default others default)
      simp [argumentAlternatives, firstOf, read_choice, read_seq, optionalArgument,
        ArgumentCore.lexemes, ArgumentCore.declared, TypeTree.use, defaultLexemes, found,
        typeSound]

/-- A type that does not go on to its end is not followed by an ellipsis. -/
theorem read_variadicArgument_unsound {type : TypeTree} (unsound : type.sound = false)
    (others : List Lexeme) :
    grammar.read variadicArgument (written (type.lexemes ++ others)) = none := by
  rw [variadicArgument, read_map, (typeStuck unsound others).seq_none]
  · rfl
  · intro mark rest isLeft
    simp

/-- A type that does not go on to its end is not followed by a name. -/
theorem read_requiredArgument_unsound {type : TypeTree} (unsound : type.sound = false)
    (others : List Lexeme) :
    grammar.read requiredArgument (written (type.lexemes ++ others)) = none := by
  rw [requiredArgument, read_map, (typeStuck unsound others).seq_none]
  · rfl
  · intro mark rest isLeft
    simp

/-- A type does not start with the word for optional arguments. -/
theorem read_optionalArgument_type (type : TypeTree) (others : List Lexeme) :
    grammar.read optionalArgument (written (type.lexemes ++ others)) = none := by
  simp [optionalArgument]

/-- No form of an argument is read from an unsound type. -/
theorem read_alternatives_unsound {type : TypeTree} (unsound : type.sound = false)
    (others : List Lexeme) :
    grammar.read argumentAlternatives (written (type.lexemes ++ others)) = none := by
  simp [argumentAlternatives, firstOf, read_choice, read_optionalArgument_type,
    read_variadicArgument_unsound unsound, read_requiredArgument_unsound unsound]

/-- The word for an optional argument is read as a type, and the first word of an unsound type as
the name of the argument. -/
theorem stuck_optional {type : TypeTree} (unsound : type.sound = false) (others : List Lexeme) :
    Stuck .closeParenthesis (grammar.read (spaced argumentAlternatives)
      (written (.keyword .optional :: (type.lexemes ++ others)))) := by
  have noOptional : grammar.read optionalArgument
      (written (.keyword .optional :: (type.lexemes ++ others))) = none := by
    have missing : grammar.read (.seq (spaced Idl.type) (.seq (spaced name)
        (.optional «default»))) (written (type.lexemes ++ others)) = none :=
      (typeStuck unsound others).seq_none fun mark rest _ => by simp [read_seq]
    simp [optionalArgument, missing]
  obtain ⟨use, found⟩ := read_type_keyword_type .optional type others
  have begins := beginsCompound_of_unsound unsound others
  generalize type.lexemes ++ others = lexemes at begins noOptional found
  cases begins with
  | union first second rest =>
    simp [argumentAlternatives, firstOf, read_choice, noOptional, variadicArgument,
      requiredArgument, read_seq, found, Stuck]
  | @word content next continues rest =>
    have notComma : (written (next :: rest)).head? ≠ some ',' :=
      head_continues (by decide) (by decide) (by decide) continues rest
    have notClosing : (written (next :: rest)).head? ≠ some ')' :=
      head_continues (by decide) (by decide) (by decide) continues rest
    simp [argumentAlternatives, firstOf, read_choice, noOptional, variadicArgument,
      requiredArgument, read_seq, found, Stuck, notComma, notClosing, Mark.char]

/-- An argument with an unsound type stops in front of something that closes no list. -/
theorem stuck_argumentCore {core : ArgumentCore} (unsound : core.type.sound = false)
    (others : List Lexeme) :
    Stuck .closeParenthesis
      (grammar.read (spaced argumentAlternatives) (written (core.lexemes ++ others))) := by
  cases core with
  | required type name | variadic type name =>
    have typeUnsound : type.sound = false := unsound
    rw [ArgumentCore.lexemes, List.append_assoc, read_spaced,
      read_alternatives_unsound typeUnsound]
    exact nofun
  | optional type name default =>
    rw [ArgumentCore.lexemes, List.cons_append, List.append_assoc]
    exact stuck_optional unsound _

end InterfaceAudit.Idl
