import TypeGraph.Java.Terminal

/-! The symbols of the Java grammar and the names that a tree gives to its parts. -/

namespace TypeGraph.Java

/-- A nonterminal symbol of the grammar. -/
inductive Rule where
  -- The text as a whole.
  | program | toplevelStatement
  -- Literals.
  | literal | stringLiteral | plainString | textBlock | textBlockFragment | stringInterpolation
  | textEscapeSequence
  -- Expressions.
  | expression | castExpression | assignmentExpression | binaryExpression | instanceofExpression
  | lambdaExpression | inferredParameters | ternaryExpression | unaryExpression | updateExpression
  | primaryExpression | arrayCreationExpression | dimensionsExpr | parenthesizedExpression
  | condition | classLiteral | objectCreationExpression | unqualifiedCreation | fieldAccess
  | templateExpression | arrayAccess | methodInvocation | argumentList | methodReference
  | typeArguments | wildcard | wildcardBounds | dimensions
  -- Switches and their patterns.
  | switchExpression | switchBlock | switchBlockStatementGroup | switchRule | switchLabel
  | pattern | typePattern | recordPattern | recordPatternBody | recordPatternComponent | guard
  -- Statements.
  | statement | block | expressionStatement | labeledStatement | assertStatement | doStatement
  | breakStatement | continueStatement | returnStatement | yieldStatement | synchronizedStatement
  | throwStatement | tryStatement | catchClause | catchFormalParameter | catchType | finallyClause
  | tryWithResourcesStatement | resourceSpecification | resource | ifStatement | whileStatement
  | forStatement | enhancedForStatement
  -- Markers after an at sign.
  | annotationUse | annotationMarker | annotationCall | annotationArgumentList | elementValuePair
  | elementValue | elementValueArrayInitializer
  -- Declarations.
  | declaration | moduleDeclaration | moduleBody | moduleDirective | requiresModuleDirective
  | requiresModifier | exportsModuleDirective | opensModuleDirective | usesModuleDirective
  | providesModuleDirective | packageDeclaration | importDeclaration | asterisk | enumDeclaration
  | enumBody | enumBodyDeclarations | enumConstant | classDeclaration | modifiers | typeParameters
  | typeParameter | typeBound | superclass | superInterfaces | typeList | permits | classBody
  | staticInitializer | constructorDeclaration | constructorDeclarator | constructorBody
  | explicitConstructorInvocation | scopedIdentifier | fieldDeclaration | recordDeclaration
  | annotationTypeDeclaration | annotationTypeBody | annotationTypeElementDeclaration
  | defaultValue | interfaceDeclaration | extendsInterfaces | interfaceBody | constantDeclaration
  | variableDeclaratorList | variableDeclarator | variableDeclaratorId | arrayInitializer
  -- Types.
  | anyType | unannotatedType | annotatedType | scopedTypeIdentifier | genericType | arrayType
  | integralType | floatingPointType
  -- Methods and their parameters.
  | methodHeader | methodDeclarator | formalParameters | formalParameter | receiverParameter
  | spreadParameter | throws | localVariableDeclaration | methodDeclaration
  | compactConstructorDeclaration | reservedIdentifier
  -- Lists of one or more.
  | toplevelStatements | stringParts | textBlockParts | moreCastTypes | moreInferredParameters
  | annotationUses | dimensionsExprs | moreExpressions | moreTypeArguments | emptyDimensions
  | switchGroups | switchRules | switchLabels | statements | moreRecordComponents | catchClauses
  | moreCatchTypes | moreResources | moreElementPairs | moreElementValues | moduleDirectives
  | requiresModifiers | moreModules | moreEnumConstants | classMembers | modifierList
  | moreTypeParameters | moreBounds | moreTypes | annotationTypeMembers | interfaceMembers
  | moreDeclarators | moreInitializers | moreParameters | receiverQualifiers
deriving DecidableEq, Repr

namespace Rule

/-- Every rule, in the order of declaration. -/
def all : List Rule :=
  [.program, .toplevelStatement, .literal, .stringLiteral, .plainString, .textBlock,
   .textBlockFragment, .stringInterpolation, .textEscapeSequence, .expression, .castExpression,
   .assignmentExpression, .binaryExpression, .instanceofExpression, .lambdaExpression,
   .inferredParameters, .ternaryExpression, .unaryExpression, .updateExpression,
   .primaryExpression, .arrayCreationExpression, .dimensionsExpr, .parenthesizedExpression,
   .condition, .classLiteral, .objectCreationExpression, .unqualifiedCreation, .fieldAccess,
   .templateExpression, .arrayAccess, .methodInvocation, .argumentList, .methodReference,
   .typeArguments, .wildcard, .wildcardBounds, .dimensions, .switchExpression, .switchBlock,
   .switchBlockStatementGroup, .switchRule, .switchLabel, .pattern, .typePattern, .recordPattern,
   .recordPatternBody, .recordPatternComponent, .guard, .statement, .block, .expressionStatement,
   .labeledStatement, .assertStatement, .doStatement, .breakStatement, .continueStatement,
   .returnStatement, .yieldStatement, .synchronizedStatement, .throwStatement, .tryStatement,
   .catchClause, .catchFormalParameter, .catchType, .finallyClause, .tryWithResourcesStatement,
   .resourceSpecification, .resource, .ifStatement, .whileStatement, .forStatement,
   .enhancedForStatement, .annotationUse, .annotationMarker, .annotationCall,
   .annotationArgumentList, .elementValuePair, .elementValue, .elementValueArrayInitializer,
   .declaration, .moduleDeclaration, .moduleBody, .moduleDirective, .requiresModuleDirective,
   .requiresModifier, .exportsModuleDirective, .opensModuleDirective, .usesModuleDirective,
   .providesModuleDirective, .packageDeclaration, .importDeclaration, .asterisk, .enumDeclaration,
   .enumBody, .enumBodyDeclarations, .enumConstant, .classDeclaration, .modifiers,
   .typeParameters, .typeParameter, .typeBound, .superclass, .superInterfaces, .typeList,
   .permits, .classBody, .staticInitializer, .constructorDeclaration, .constructorDeclarator,
   .constructorBody, .explicitConstructorInvocation, .scopedIdentifier, .fieldDeclaration,
   .recordDeclaration, .annotationTypeDeclaration, .annotationTypeBody,
   .annotationTypeElementDeclaration, .defaultValue, .interfaceDeclaration, .extendsInterfaces,
   .interfaceBody, .constantDeclaration, .variableDeclaratorList, .variableDeclarator,
   .variableDeclaratorId, .arrayInitializer, .anyType, .unannotatedType, .annotatedType,
   .scopedTypeIdentifier, .genericType, .arrayType, .integralType, .floatingPointType,
   .methodHeader, .methodDeclarator, .formalParameters, .formalParameter, .receiverParameter,
   .spreadParameter, .throws, .localVariableDeclaration, .methodDeclaration,
   .compactConstructorDeclaration, .reservedIdentifier, .toplevelStatements, .stringParts,
   .textBlockParts, .moreCastTypes, .moreInferredParameters, .annotationUses, .dimensionsExprs,
   .moreExpressions, .moreTypeArguments, .emptyDimensions, .switchGroups, .switchRules,
   .switchLabels, .statements, .moreRecordComponents, .catchClauses, .moreCatchTypes,
   .moreResources, .moreElementPairs, .moreElementValues, .moduleDirectives, .requiresModifiers,
   .moreModules, .moreEnumConstants, .classMembers, .modifierList, .moreTypeParameters,
   .moreBounds, .moreTypes, .annotationTypeMembers, .interfaceMembers, .moreDeclarators,
   .moreInitializers, .moreParameters, .receiverQualifiers]

/-- The position of a rule in the list of all. -/
def index (r : Rule) : Nat := r.ctorIdx

/-- Rules that make no node of their own: their parts belong to the rule around them. -/
def isHidden : Rule → Bool
  | .toplevelStatement | .literal | .plainString | .textBlock | .textEscapeSequence
  | .expression | .primaryExpression | .unqualifiedCreation | .wildcardBounds | .statement
  | .annotationUse | .elementValue | .declaration | .moduleDirective | .constructorDeclarator
  | .defaultValue | .variableDeclaratorList | .variableDeclaratorId | .anyType
  | .unannotatedType | .methodHeader | .methodDeclarator | .reservedIdentifier
  | .toplevelStatements | .stringParts | .textBlockParts | .moreCastTypes
  | .moreInferredParameters | .annotationUses | .dimensionsExprs | .moreExpressions
  | .moreTypeArguments | .emptyDimensions | .switchGroups | .switchRules | .switchLabels
  | .statements | .moreRecordComponents | .catchClauses | .moreCatchTypes | .moreResources
  | .moreElementPairs | .moreElementValues | .moduleDirectives | .requiresModifiers
  | .moreModules | .moreEnumConstants | .classMembers | .modifierList | .moreTypeParameters
  | .moreBounds | .moreTypes | .annotationTypeMembers | .interfaceMembers | .moreDeclarators
  | .moreInitializers | .moreParameters | .receiverQualifiers => true
  | _ => false

end Rule

/-- A symbol of the grammar. -/
inductive Symbol where
  | terminal (t : Terminal)
  | rule (r : Rule)
deriving DecidableEq, Repr

/-- The position of a symbol, with all terminals before all rules. -/
def Symbol.index : Symbol → Nat
  | terminal t => t.index
  | rule r => Terminal.all.length + r.index

/-- A name by which a node refers to one of its parts. -/
inductive Field where
  | name | type | body | superclass | interfaces | object | member | element
deriving DecidableEq, Repr

/-- What a part of a tree is. -/
inductive Label where
  /-- A phrase derived by a rule. -/
  | rule (r : Rule)
  /-- A lexeme of a terminal. -/
  | lexeme (t : Terminal)
  /-- A name that stands for a type. -/
  | typeIdentifier
  /-- An empty stand-in for a lexeme that the text lacks. -/
  | missing (t : Terminal)
  /-- A place where the text cannot go on. -/
  | unexpected
deriving DecidableEq, Repr

/-- Whether a part counts among the named parts of its node. -/
def Label.isNamed : Label → Bool
  | rule _ | typeIdentifier | unexpected => true
  | lexeme t | missing t => t.isNamed

/-- Whether a part marks a fault of the text. -/
def Label.isFault : Label → Bool
  | missing _ | unexpected => true
  | _ => false

end TypeGraph.Java
