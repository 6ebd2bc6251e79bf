import ContractAudit.Rust.Expression

/-! Items and statements. -/

namespace ContractAudit.Rust

def visibility (g : Grammar) : Parse Nodes := do
  match ← peekWord with
  | "crate" =>
    failure? (!startsWith (← peekSecond) "::")
    return wrap "visibility_modifier" (← keyword "crate")
  | "pub" =>
    let scope : Parse Nodes := do
      let opening ← mark "("
      let w ← peekWord
      let inside : Parse Nodes := do return (← keyword "in") ++ (← path g)
      failure? (pathWords.contains w || w = "in")
      return opening ++ (← if w = "in" then inside else keyword w) ++ (← mark ")")
    return wrap "visibility_modifier" ((← keyword "pub") ++ (← optional scope))
  | _ => failure

def semicolon : Parse Nodes := mark ";"

def braced (kind : String) (item : Parse Nodes) : Parse Nodes := do
  return wrap kind ((← mark "\x7b") ++ (← sepBy (mark ",") item) ++ (← mark "\x7d"))

def fieldList (g : Grammar) : Parse Nodes :=
  braced "field_declaration_list" do
    let attributes ← attributeItems g
    let field := wrap "field_declaration" ((← optional (visibility g)) ++
      (← word "field_identifier") ++ (← mark ":") ++ (← g .type))
    return attributes ++ field

def orderedFieldList (g : Grammar) : Parse Nodes := do
  let field : Parse Nodes := do
    return (← attributeItems g) ++ (← optional (visibility g)) ++ (← g .type)
  return wrap "ordered_field_declaration_list"
    ((← mark "(") ++ (← sepBy (mark ",") field) ++ (← mark ")"))

def typeName (g : Grammar) : Parse Nodes := do
  return (← word "type_identifier") ++ (← optional (typeParameters g))

def structItem (g : Grammar) (vis : Nodes) : Parse Nodes := do
  let head := vis ++ (← keyword "struct") ++ (← typeName g)
  let record : Parse Nodes := do return (← optional (whereClause g)) ++ (← fieldList g)
  let tuple : Parse Nodes := do
    return (← orderedFieldList g) ++ (← optional (whereClause g)) ++ (← semicolon)
  return wrap "struct_item" (head ++ (← record <|> tuple <|> semicolon))

def unionItem (g : Grammar) (vis : Nodes) : Parse Nodes := do
  return wrap "union_item" (vis ++ (← keyword "union") ++ (← typeName g) ++
    (← optional (whereClause g)) ++ (← fieldList g))

def enumItem (g : Grammar) (vis : Nodes) : Parse Nodes := do
  let variant : Parse Nodes := do
    let attributes ← attributeItems g
    let value : Parse Nodes := do return (← mark "=") ++ (← g .value)
    let body := (← optional (visibility g)) ++ (← word "identifier") ++
      (← optional (fieldList g <|> orderedFieldList g)) ++ (← optional value)
    return attributes ++ wrap "enum_variant" body
  return wrap "enum_item" (vis ++ (← keyword "enum") ++ (← typeName g) ++
    (← optional (whereClause g)) ++ (← braced "enum_variant_list" variant))

def initializer (g : Grammar) : Parse Nodes := do return (← mark "=") ++ (← g .value)

def constItem (g : Grammar) (vis : Nodes) : Parse Nodes := do
  return wrap "const_item" (vis ++ (← keyword "const") ++ (← word "identifier") ++ (← mark ":") ++
    (← g .type) ++ (← optional (initializer g)) ++ (← semicolon))

def staticItem (g : Grammar) (vis : Nodes) : Parse Nodes := do
  let head := vis ++ (← keyword "static") ++ (← optional (keyword "ref")) ++ (← optional mutable)
  return wrap "static_item" (head ++ (← word "identifier") ++ (← mark ":") ++ (← g .type) ++
    (← optional (initializer g)) ++ (← semicolon))

def typeItem (g : Grammar) (vis : Nodes) : Parse Nodes := do
  let head := vis ++ (← keyword "type") ++ (← typeName g)
  if ← atMark "=" then
    return wrap "type_item" (head ++ (← mark "=") ++ (← g .type) ++ (← semicolon))
  else
    return wrap "associated_type" (head ++ (← optional (traitBounds g)) ++ (← semicolon))

def functionItem (g : Grammar) (head : Nodes) : Parse Nodes := do
  let signature := head ++ (← keyword "fn") ++ (← metavariable <|> word "identifier") ++
    (← optional (typeParameters g)) ++ (← parameters g) ++ (← optional (arrow g)) ++
    (← optional (whereClause g))
  if ← atMark ";" then return wrap "function_signature_item" (signature ++ (← semicolon))
  else return wrap "function_item" (signature ++ (← g .block))

def declarationList (g : Grammar) : Parse Nodes := do
  return wrap "declaration_list"
    ((← mark "\x7b") ++ (← many (g .declaration)) ++ (← mark "\x7d"))

def implItem (g : Grammar) : Parse Nodes := do
  let head := (← optional (keyword "unsafe")) ++ (← keyword "impl") ++
    (← optional (typeParameters g)) ++ (← g .type)
  let target ← optional do return (← keyword "for") ++ (← g .type)
  return wrap "impl_item" (head ++ target ++ (← optional (whereClause g)) ++
    (← declarationList g <|> semicolon))

def traitItem (g : Grammar) (vis : Nodes) : Parse Nodes := do
  return wrap "trait_item" (vis ++ (← optional (keyword "unsafe")) ++ (← keyword "trait") ++
    (← typeName g) ++ (← optional (traitBounds g)) ++ (← optional (whereClause g)) ++
    (← declarationList g))

def modItem (g : Grammar) (vis : Nodes) : Parse Nodes := do
  return wrap "mod_item" (vis ++ (← keyword "mod") ++ (← word "identifier") ++
    (← semicolon <|> declarationList g))

def useClause : Parse Nodes :=
  many (word "identifier" <|> metavariable <|> mark "::" <|> mark "\x7b" <|> mark "\x7d" <|>
    mark "," <|> mark "*")

def useDeclaration (vis : Nodes) : Parse Nodes := do
  return wrap "use_declaration" (vis ++ (← keyword "use") ++ (← useClause) ++ (← semicolon))

def externItem (g : Grammar) (vis : Nodes) : Parse Nodes := do
  let crate : Parse Nodes := do
    let rename : Parse Nodes := do return (← keyword "as") ++ (← word "identifier")
    return wrap "extern_crate_declaration" (vis ++ (← keyword "extern") ++ (← keyword "crate") ++
      (← word "identifier") ++ (← optional rename) ++ (← semicolon))
  let foreign : Parse Nodes := do
    return wrap "foreign_mod_item"
      (vis ++ (← externModifier) ++ (← semicolon <|> declarationList g))
  let function : Parse Nodes := do functionItem g (vis ++ (← functionModifiers))
  crate <|> foreign <|> function

def letDeclaration (g : Grammar) : Parse Nodes := do
  let head := (← keyword "let") ++ (← optional mutable) ++ (← g (.pattern true))
  let type ← optional do return (← mark ":") ++ (← g .type)
  let value ← optional (initializer g)
  let other ← optional do return (← keyword "else") ++ (← g .block)
  return wrap "let_declaration" (head ++ type ++ value ++ other ++ (← semicolon))

def namedItem (g : Grammar) (vis : Nodes) : Parse Nodes := do
  let function : Parse Nodes := do functionItem g (vis ++ (← functionModifiers))
  match ← peekWord with
  | "fn" => functionItem g vis
  | "struct" => structItem g vis
  | "union" => unionItem g vis
  | "enum" => enumItem g vis
  | "const" => constItem g vis <|> function
  | "static" => staticItem g vis
  | "type" => typeItem g vis
  | "impl" => implItem g
  | "trait" => traitItem g vis
  | "mod" => modItem g vis
  | "use" => useDeclaration vis
  | "extern" => externItem g vis
  | "unsafe" => implItem g <|> traitItem g vis <|> function
  | "async" | "default" => function
  | _ => failure

def item (g : Grammar) : Parse Nodes := do
  let vis ← optional (visibility g)
  namedItem g vis

def itemWords : List String :=
  ["use", "mod", "struct", "enum", "trait", "impl", "type", "fn", "static", "extern", "pub"]

def startsItem : Parse Bool := do
  let w ← peekWord
  let second ← peekSecond
  return itemWords.contains w ||
    (match w with
    | "const" | "unsafe" => !startsWith second "\x7b"
    | "async" => !startsWith second "\x7b" && wordOf second ≠ "move"
    | "crate" => !startsWith second "::"
    | "union" => wordOf second ≠ "" && wordOf second ≠ "as"
    | "default" => (wordOf second = "fn" || functionWords.contains (wordOf second))
    | _ => false)

def simpleDeclaration (g : Grammar) : Parse Nodes := do
  let s ← peek
  if startsWith s ";" then return wrap "empty_statement" (← semicolon)
  else if startsWith s "#" then attributeItem g <|> innerAttributeItem g
  else if startsWith s "macro_rules!" then macroDefinition
  else if wordOf s = "let" then letDeclaration g
  else if ← startsItem then item g
  else failure

def declaration (g : Grammar) : Parse Nodes := do
  let invoked : Parse Nodes := do invocation (← path g)
  simpleDeclaration g <|> invoked

/-- Ends a statement that is an expression. The last expression of a block stays as it is, and so
does a macro invocation. -/
def endStatement (value : Nodes) : Parse Nodes := do
  let s ← peek
  if startsWith s ";" then return wrap "expression_statement" (value ++ (← semicolon))
  else
    failure? (startsWith s "\x7d" || s.isEmpty || lastKind value = "macro_invocation")
    return value

/-- A statement that is an expression. One that ends with a block needs no semicolon, and only an
operator that can start no statement extends it. -/
def expressionStatement (g : Grammar) : Parse Nodes := do
  if ← startsBlock then
    let block ← g .blockLike
    if ← extendsBlock statementStarters then endStatement (← climbAll g block)
    else return wrap "expression_statement" block
  else endStatement (← g .value)

def statement (g : Grammar) : Parse Nodes := do
  let s ← peek
  failure? (!s.isEmpty && !startsWith s "\x7d")
  simpleDeclaration g <|> expressionStatement g

def block (g : Grammar) : Parse Nodes := do
  return wrap "block" ((← mark "\x7b") ++ (← many (g .statement)) ++ (← mark "\x7d"))

end ContractAudit.Rust
