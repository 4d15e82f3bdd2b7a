import InterfaceAudit.Table

/-!
Symbols that the artifacts of an interface declare, and where they stand.
-/

namespace InterfaceAudit

/-- A place is a line and, where it is known, the last line; lines are counted from one. -/
structure Place where
  line : Nat
  endLine : Option Nat := none
  deriving DecidableEq, Repr

abbrev SymbolTable := Table Place

/-- Declarations found in a native header. -/
structure HeaderSymbols where
  className : String
  methods : SymbolTable
  staticMethods : SymbolTable

/-- Definitions found in a native implementation. -/
structure ImplementationSymbols where
  constructor : Option Place
  methods : SymbolTable

/-- Members of the class that a wrapper declares. -/
structure WrapperSymbols where
  className : String
  constructor : Option Place
  methods : SymbolTable
  getters : SymbolTable
  setters : SymbolTable
  staticMethods : SymbolTable

structure TestCase where
  name : String
  place : Place
  deriving DecidableEq, Repr

/-- Named groups, and cases in document order with repetitions. -/
structure TestSymbols where
  groups : SymbolTable
  cases : List TestCase

end InterfaceAudit
