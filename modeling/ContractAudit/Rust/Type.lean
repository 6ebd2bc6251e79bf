import ContractAudit.Rust.Path

/-! Types, parameters and the clauses that bound types. -/

namespace ContractAudit.Rust

def functionWords : List String := ["async", "default", "const", "unsafe"]

def externModifier : Parse Nodes := do
  let text : Parse Nodes := lexeme "string_literal" stringLiteralEnd
  return wrap "extern_modifier" ((← keyword "extern") ++ (← optional text))

def functionModifier : Parse Nodes := do
  let w ← peekWord
  if functionWords.contains w then keyword w else externModifier

def functionModifiers : Parse Nodes := do
  let first ← functionModifier
  return wrap "function_modifiers" (first ++ (← many functionModifier))

def selfParameter : Parse Nodes := do
  let parts := (← optional (mark "&")) ++ (← optional lifetime) ++ (← optional mutable) ++
    (← keyword "self")
  let s ← peek
  failure? (startsWith s "," || startsWith s ")")
  return wrap "self_parameter" parts

def typedPattern (g : Grammar) (bars : Bool) : Parse Nodes := do
  let pattern ← g (.pattern bars)
  failure? (!(← atMark "::"))
  return wrap "parameter" (pattern ++ (← mark ":") ++ (← g .type))

def parameters (g : Grammar) : Parse Nodes := do
  let variadic : Parse Nodes := do return wrap "variadic_parameter" (← mark "...")
  let parameter : Parse Nodes := do
    let attributes ← optional (attributeItem g)
    return attributes ++ (← selfParameter <|> typedPattern g true <|> variadic <|> g .type)
  return wrap "parameters" ((← mark "(") ++ (← sepBy (mark ",") parameter) ++ (← mark ")"))

def arrow (g : Grammar) : Parse Nodes := do return (← mark "->") ++ (← g .type)

def forLifetimes : Parse Nodes := do
  return wrap "for_lifetimes"
    ((← keyword "for") ++ (← mark "<") ++ (← sepBy (mark ",") lifetime) ++ (← mark ">"))

def typePathFrom (g : Grammar) : Nat → Nodes → Parse Nodes
  | 0, left => pure left
  | fuel + 1, left => do
    let s ← peek
    let kind := lastKind left
    if startsWith s "<" && (kind = "type_identifier" || kind = "scoped_type_identifier") then
      typePathFrom g fuel (wrap "generic_type" (left ++ (← typeArguments g)))
    else if startsWith s "::" then
      let dots ← mark "::"
      if ← atMark "<" then
        typePathFrom g fuel (wrap "generic_type" (left ++ dots ++ (← typeArguments g)))
      else
        typePathFrom g fuel
          (wrap "scoped_type_identifier" (left ++ dots ++ (← word "type_identifier")))
    else return left

def typeWordKind (w : String) : String :=
  if pathWords.contains w then w
  else if primitiveTypes.contains w then "primitive_type"
  else "type_identifier"

def typePath (g : Grammar) : Parse Nodes := do
  let s ← peek
  let rooted : Parse Nodes := do
    return wrap "scoped_type_identifier" ((← mark "::") ++ (← word "type_identifier"))
  let first :=
    if startsWith s "<" then bracketedType g
    else if startsWith s "::" then rooted
    else if startsWith s "$" then metavariable
    else word (typeWordKind (wordOf s))
  let left ← typePathFrom g (← get).left (← first)
  let s ← peek
  if atBang s then invocation left
  else if startsWith s "(" then
    return wrap "function_type" (left ++ (← parameters g) ++ (← optional (arrow g)))
  else return left

def functionPointer (g : Grammar) (modifiers : Nodes) : Parse Nodes := do
  return wrap "function_type"
    (modifiers ++ (← keyword "fn") ++ (← parameters g) ++ (← optional (arrow g)))

def typeAtom (g : Grammar) : Nat → Parse Nodes
  | 0 => failure
  | fuel + 1 => do
    let s ← peek
    let w := wordOf s
    if startsWith s "&" then
      return wrap "reference_type" ((← mark "&") ++ (← optional lifetime) ++ (← optional mutable) ++
        (← typeAtom g fuel))
    else if startsWith s "*" then
      return wrap "pointer_type" ((← mark "*") ++ (← keyword "const" <|> mutable) ++
        (← typeAtom g fuel))
    else if startsWith s "(" then
      let opening ← mark "("
      if ← atMark ")" then return wrap "unit_type" (opening ++ (← mark ")"))
      else return wrap "tuple_type" (opening ++ (← sepBy (mark ",") (g .type)) ++ (← mark ")"))
    else if startsWith s "[" then
      let length : Parse Nodes := do return (← mark ";") ++ (← g .value)
      return wrap "array_type" ((← mark "[") ++ (← g .type) ++ (← optional length) ++ (← mark "]"))
    else if startsWith s "!" then return wrap "empty_type" (← mark "!")
    else if w = "impl" || w = "dyn" then
      return wrap (if w = "dyn" then "dynamic_type" else "abstract_type")
        ((← keyword w) ++ (← typeAtom g fuel))
    else if w = "for" then
      return wrap "function_type" ((← forLifetimes) ++ (← typeAtom g fuel))
    else if w = "fn" then functionPointer g []
    else if functionWords.contains w || w = "extern" then functionPointer g (← functionModifiers)
    else typePath g

def typeTerm (g : Grammar) : Parse Nodes := do typeAtom g (← get).left

def typeSum (g : Grammar) : Nat → Nodes → Parse Nodes
  | 0, left => pure left
  | fuel + 1, left => do
    let s ← peek
    if startsWith s "+" && !startsWith s "+=" then
      typeSum g fuel (wrap "bounded_type" (left ++ (← mark "+") ++ (← lifetime <|> typeTerm g)))
    else return left

def typeRule (g : Grammar) : Parse Nodes := do
  let bounded : Parse Nodes := do
    return wrap "bounded_type" ((← lifetime) ++ (← mark "+") ++ (← typeTerm g))
  typeSum g (← get).left (← bounded <|> typeTerm g)

def bound (g : Grammar) : Parse Nodes := do
  let removed : Parse Nodes := do return wrap "removed_trait_bound" ((← mark "?") ++ (← typeTerm g))
  removed <|> lifetime <|> typeTerm g

def traitBounds (g : Grammar) : Parse Nodes := do
  return wrap "trait_bounds" ((← mark ":") ++ (← sepBy1 (mark "+") (bound g)))

def whereClause (g : Grammar) : Parse Nodes := do
  let predicate : Parse Nodes := do
    return wrap "where_predicate" ((← lifetime <|> typeTerm g) ++ (← traitBounds g))
  return wrap "where_clause" ((← keyword "where") ++ (← sepBy (mark ",") predicate))

def typeParameters (g : Grammar) : Parse Nodes := do
  let constant : Parse Nodes := do
    return wrap "const_parameter"
      ((← keyword "const") ++ (← word "identifier") ++ (← mark ":") ++ (← g .type))
  let named : Parse Nodes := do
    let name ← lifetime <|> metavariable <|> word "type_identifier"
    let bounds ← optional (traitBounds g)
    let left := if bounds.isEmpty then name else wrap "constrained_type_parameter" (name ++ bounds)
    let preset ← optional do return (← mark "=") ++ (← g .type)
    return if preset.isEmpty then left else wrap "optional_type_parameter" (left ++ preset)
  return wrap "type_parameters"
    ((← mark "<") ++ (← sepBy (mark ",") (constant <|> named)) ++ (← mark ">"))

end ContractAudit.Rust
