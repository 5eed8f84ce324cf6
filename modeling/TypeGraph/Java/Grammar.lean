import TypeGraph.Java.Phrase

/-! The grammar of Java source files. -/

namespace TypeGraph.Java

namespace Rule

open Terminal Phrase Definition

/-- A name, possibly qualified. -/
private def qualifiedName : Phrase :=
  oneOf [identifier, reservedIdentifier, scopedIdentifier]

/-- An identifier in a place where only a type can stand. -/
private def typeName : Phrase :=
  renamed .typeIdentifier identifier

/-- A type without dimensions. -/
private def simpleType : Phrase := oneOf [
  voidWord, integralType, floatingPointType, booleanWord, typeName, scopedTypeIdentifier,
  genericType]

/-- A member of a class. -/
private def classMember : Phrase := oneOf [
  fieldDeclaration, recordDeclaration, methodDeclaration, compactConstructorDeclaration,
  classDeclaration, interfaceDeclaration, annotationTypeDeclaration, enumDeclaration, block,
  staticInitializer, constructorDeclaration, semicolon]

/-- What a variable may start with. -/
private def variableInitializer : Phrase :=
  oneOf [expression, arrayInitializer]

/-- The right-hand side of every rule. -/
def definition : Rule → Definition
  | .program => plain (opt toplevelStatements)
  | .toplevelStatement => plain (oneOf [statement, methodDeclaration])
  | .literal => plain <| oneOf [
      decimalInteger, hexInteger, octalInteger, binaryInteger, decimalFloat, hexFloat, trueWord,
      falseWord, characterLiteral, stringLiteral, nullWord]
  | .stringLiteral => plain (oneOf [plainString, textBlock])
  | .plainString => plain (seq [quote, opt stringParts, quote])
  | .textBlock => plain (seq [tripleQuote, opt textBlockParts, tripleQuote])
  | .textBlockFragment => plain (oneOf [textFragment, quotedTextFragment])
  | .stringInterpolation => plain (seq [interpolationOpen, expression, rightBrace])
  | .textEscapeSequence => ranked 2 textEscape ++ ranked 1 escapeSequence
  | .expression => plain <| oneOf [
      assignmentExpression, binaryExpression, instanceofExpression, lambdaExpression,
      ternaryExpression, updateExpression, primaryExpression, unaryExpression, castExpression,
      switchExpression]
  | .castExpression => ranked 14 <| oneOf [
      seq [leftParen, labelled .type anyType, rightParen, expression],
      seq [leftParen, labelled .type anyType, opt moreCastTypes, rightParen,
        oneOf [primaryExpression, lambdaExpression]]]
  | .assignmentExpression => rightward 1 <| seq [
      oneOf [identifier, reservedIdentifier, fieldAccess, arrayAccess],
      oneOf [assign, plusAssign, minusAssign, timesAssign, divideAssign, andAssign, orAssign,
        xorAssign, remainderAssign, shiftLeftAssign, shiftRightAssign, unsignedShiftAssign],
      expression]
  | .binaryExpression =>
    leftward 10 (seq [expression, oneOf [greater, less, greaterEqual, lessEqual], expression]) ++
    leftward 9 (seq [expression, oneOf [equal, notEqual], expression]) ++
    leftward 5 (seq [expression, logicalAnd, expression]) ++
    leftward 4 (seq [expression, logicalOr, expression]) ++
    leftward 12 (seq [expression, oneOf [plus, minus], expression]) ++
    leftward 13 (seq [expression, oneOf [times, slash, percent], expression]) ++
    leftward 8 (seq [expression, ampersand, expression]) ++
    leftward 6 (seq [expression, bar, expression]) ++
    leftward 7 (seq [expression, caret, expression]) ++
    leftward 11 (seq [expression, oneOf [shiftLeft, shiftRight, unsignedShift], expression])
  | .instanceofExpression => ranked 10 <| seq [
      expression, instanceofWord, opt finalWord,
      oneOf [seq [anyType, opt (labelled .name (oneOf [identifier, reservedIdentifier]))],
        recordPattern]]
  | .lambdaExpression => plain <| seq [
      oneOf [identifier, formalParameters, inferredParameters, reservedIdentifier], arrow,
      labelled .body (oneOf [expression, block])]
  | .inferredParameters => plain <| seq [
      leftParen, oneOf [identifier, reservedIdentifier], opt moreInferredParameters, rightParen]
  | .ternaryExpression => rightward 3 (seq [expression, question, expression, colon, expression])
  | .unaryExpression => leftward 15 (seq [oneOf [plus, minus, bang, tilde], expression])
  | .updateExpression => leftward 15 <| oneOf [
      seq [expression, increment], seq [expression, decrement], seq [increment, expression],
      seq [decrement, expression]]
  | .primaryExpression => plain <| oneOf [
      literal, classLiteral, thisWord, identifier, reservedIdentifier, parenthesizedExpression,
      objectCreationExpression, fieldAccess, arrayAccess, methodInvocation, methodReference,
      arrayCreationExpression, templateExpression]
  | .arrayCreationExpression => rightward 0 <| seq [
      newWord, opt annotationUses, labelled .type simpleType,
      oneOf [seq [dimensionsExprs, opt dimensions], seq [dimensions, arrayInitializer]]]
  | .dimensionsExpr => plain (seq [opt annotationUses, leftBracket, expression, rightBracket])
  | .parenthesizedExpression => plain (seq [leftParen, expression, rightParen])
  | .condition => plain (seq [leftParen, expression, rightParen])
  | .classLiteral => favoured 17 (seq [unannotatedType, dot, classWord])
  | .objectCreationExpression => plain <| oneOf [
      unqualifiedCreation, seq [primaryExpression, dot, unqualifiedCreation]]
  | .unqualifiedCreation => rightward 0 <| seq [
      newWord,
      oneOf [seq [opt annotationUses, typeArguments, opt annotationUses], opt annotationUses],
      labelled .type simpleType, argumentList, opt classBody]
  | .fieldAccess => plain <| seq [
      labelled .object (oneOf [primaryExpression, superWord]), opt (seq [dot, superWord]), dot,
      labelled .member (oneOf [identifier, reservedIdentifier, thisWord])]
  | .templateExpression => plain (seq [primaryExpression, dot, stringLiteral])
  | .arrayAccess => plain (seq [primaryExpression, leftBracket, expression, rightBracket])
  | .methodInvocation => plain <| seq [
      oneOf [labelled .name (oneOf [identifier, reservedIdentifier]),
        seq [labelled .object (oneOf [primaryExpression, superWord]), dot,
          opt (seq [superWord, dot]), opt typeArguments,
          labelled .name (oneOf [identifier, reservedIdentifier])]], argumentList]
  | .argumentList => plain <| seq [
      leftParen, opt (seq [expression, opt moreExpressions]), rightParen]
  | .methodReference => plain <| seq [
      oneOf [anyType, primaryExpression, superWord], doubleColon, opt typeArguments,
      oneOf [newWord, identifier]]
  | .typeArguments => plain <| seq [
      less, opt (seq [oneOf [anyType, wildcard], opt moreTypeArguments]), greater]
  | .wildcard => plain (seq [opt annotationUses, question, opt wildcardBounds])
  | .wildcardBounds => plain (oneOf [seq [extendsWord, anyType], seq [superWord, anyType]])
  | .dimensions => rightward 0 emptyDimensions
  | .switchExpression => plain <| seq [
      switchWord, parenthesizedExpression, labelled .body switchBlock]
  | .switchBlock => plain (seq [leftBrace, opt (oneOf [switchGroups, switchRules]), rightBrace])
  | .switchBlockStatementGroup => leftward 0 (seq [switchLabels, opt statements])
  | .switchRule => plain <| seq [
      switchLabel, arrow, oneOf [expressionStatement, throwStatement, block]]
  | .switchLabel => plain <| oneOf [
      seq [caseWord, oneOf [pattern, seq [expression, opt moreExpressions]], opt guard],
      defaultWord]
  | .pattern => plain (oneOf [typePattern, recordPattern])
  | .typePattern => plain (seq [unannotatedType, oneOf [identifier, reservedIdentifier]])
  | .recordPattern => plain <| seq [
      oneOf [identifier, reservedIdentifier, genericType], recordPatternBody]
  | .recordPatternBody => plain <| seq [
      leftParen,
      opt (seq [oneOf [recordPatternComponent, recordPattern], opt moreRecordComponents]),
      rightParen]
  | .recordPatternComponent => plain <| oneOf [
      underscore, seq [unannotatedType, oneOf [identifier, reservedIdentifier]]]
  | .guard => plain (seq [whenWord, expression])
  | .statement => plain <| oneOf [
      declaration, expressionStatement, labeledStatement, ifStatement, whileStatement, forStatement,
      enhancedForStatement, block, semicolon, assertStatement, doStatement, breakStatement,
      continueStatement, returnStatement, yieldStatement, switchExpression, synchronizedStatement,
      localVariableDeclaration, throwStatement, tryStatement, tryWithResourcesStatement]
  | .block => plain (seq [leftBrace, opt statements, rightBrace])
  | .expressionStatement => plain (seq [expression, semicolon])
  | .labeledStatement => plain (seq [identifier, colon, statement])
  | .assertStatement => plain <| oneOf [
      seq [assertWord, expression, semicolon],
      seq [assertWord, expression, colon, expression, semicolon]]
  | .doStatement => plain <| seq [
      doWord, labelled .body statement, whileWord, parenthesizedExpression, semicolon]
  | .breakStatement => plain (seq [breakWord, opt identifier, semicolon])
  | .continueStatement => plain (seq [continueWord, opt identifier, semicolon])
  | .returnStatement => plain (seq [returnWord, opt expression, semicolon])
  | .yieldStatement => plain (seq [yieldWord, expression, semicolon])
  | .synchronizedStatement => plain <| seq [
      synchronizedWord, parenthesizedExpression, labelled .body block]
  | .throwStatement => plain (seq [throwWord, expression, semicolon])
  | .tryStatement => plain <| seq [
      tryWord, labelled .body block, oneOf [catchClauses, seq [opt catchClauses, finallyClause]]]
  | .catchClause => plain <| seq [
      catchWord, leftParen, catchFormalParameter, rightParen, labelled .body block]
  | .catchFormalParameter => plain (seq [opt modifiers, catchType, variableDeclaratorId])
  | .catchType => plain (seq [unannotatedType, opt moreCatchTypes])
  | .finallyClause => plain (seq [finallyWord, block])
  | .tryWithResourcesStatement => plain <| seq [
      tryWord, resourceSpecification, labelled .body block, opt catchClauses, opt finallyClause]
  | .resourceSpecification => plain <| seq [
      leftParen, resource, opt moreResources, opt semicolon, rightParen]
  | .resource => plain <| oneOf [
      seq [opt modifiers, labelled .type unannotatedType, variableDeclaratorId, assign, expression],
      identifier, fieldAccess]
  | .ifStatement => rightward 0 <| seq [
      ifWord, condition, statement, opt (seq [elseWord, statement])]
  | .whileStatement => plain (seq [whileWord, condition, labelled .body statement])
  | .forStatement => plain <| seq [
      forWord, leftParen,
      oneOf [localVariableDeclaration,
        seq [opt (seq [expression, opt moreExpressions]), semicolon]], opt expression, semicolon,
      opt (seq [expression, opt moreExpressions]), rightParen, labelled .body statement]
  | .enhancedForStatement => plain <| seq [
      forWord, leftParen, opt modifiers, labelled .type unannotatedType, variableDeclaratorId,
      colon, expression, rightParen, labelled .body statement]
  | .annotationUse => plain (oneOf [annotationMarker, annotationCall])
  | .annotationMarker => plain (seq [atSign, labelled .name qualifiedName])
  | .annotationCall => plain (seq [atSign, labelled .name qualifiedName, annotationArgumentList])
  | .annotationArgumentList => plain <| seq [
      leftParen, oneOf [elementValue, opt (seq [elementValuePair, opt moreElementPairs])],
      rightParen]
  | .elementValuePair => plain (seq [identifier, assign, elementValue])
  | .elementValue => ranked 2 (oneOf [expression, elementValueArrayInitializer, annotationUse])
  | .elementValueArrayInitializer => plain <| seq [
      leftBrace, opt (seq [elementValue, opt moreElementValues]), opt comma, rightBrace]
  | .declaration => ranked 2 <| oneOf [
      moduleDeclaration, packageDeclaration, importDeclaration, classDeclaration, recordDeclaration,
      interfaceDeclaration, annotationTypeDeclaration, enumDeclaration]
  | .moduleDeclaration => plain <| seq [
      opt annotationUses, opt openWord, moduleWord, labelled .name qualifiedName,
      labelled .body moduleBody]
  | .moduleBody => plain (seq [leftBrace, opt moduleDirectives, rightBrace])
  | .moduleDirective => plain <| oneOf [
      requiresModuleDirective, exportsModuleDirective, opensModuleDirective, usesModuleDirective,
      providesModuleDirective]
  | .requiresModuleDirective => plain <| seq [
      requiresWord, opt requiresModifiers, qualifiedName, semicolon]
  | .requiresModifier => plain (oneOf [transitiveWord, staticWord])
  | .exportsModuleDirective => plain <| seq [
      exportsWord, qualifiedName, opt (seq [toWord, qualifiedName, opt moreModules]), semicolon]
  | .opensModuleDirective => plain <| seq [
      opensWord, qualifiedName, opt (seq [toWord, qualifiedName, opt moreModules]), semicolon]
  | .usesModuleDirective => plain (seq [usesWord, labelled .type qualifiedName, semicolon])
  | .providesModuleDirective => plain <| seq [
      providesWord, qualifiedName, withWord, qualifiedName, opt moreModules, semicolon]
  | .packageDeclaration => plain (seq [opt annotationUses, packageWord, qualifiedName, semicolon])
  | .importDeclaration => plain <| seq [
      importWord, opt staticWord, qualifiedName, opt (seq [dot, asterisk]), semicolon]
  | .asterisk => plain times
  | .enumDeclaration => plain <| seq [
      opt modifiers, enumWord, labelled .name identifier,
      labelled .interfaces (opt superInterfaces), labelled .body enumBody]
  | .enumBody => plain <| seq [
      leftBrace, opt (seq [enumConstant, opt moreEnumConstants]), opt comma,
      opt enumBodyDeclarations, rightBrace]
  | .enumBodyDeclarations => plain (seq [semicolon, opt classMembers])
  | .enumConstant => plain <| seq [
      opt modifiers, labelled .name identifier, opt argumentList, labelled .body (opt classBody)]
  | .classDeclaration => plain <| seq [
      opt modifiers, classWord, labelled .name identifier, opt typeParameters,
      opt (labelled .superclass superclass), opt (labelled .interfaces superInterfaces),
      opt permits, labelled .body classBody]
  | .modifiers => plain modifierList
  | .typeParameters => plain (seq [less, typeParameter, opt moreTypeParameters, greater])
  | .typeParameter => plain (seq [opt annotationUses, typeName, opt typeBound])
  | .typeBound => plain (seq [extendsWord, anyType, opt moreBounds])
  | .superclass => plain (seq [extendsWord, anyType])
  | .superInterfaces => plain (seq [implementsWord, typeList])
  | .typeList => plain (seq [anyType, opt moreTypes])
  | .permits => plain (seq [permitsWord, typeList])
  | .classBody => plain (seq [leftBrace, opt classMembers, rightBrace])
  | .staticInitializer => plain (seq [staticWord, block])
  | .constructorDeclaration => plain <| seq [
      opt modifiers, constructorDeclarator, opt throws, labelled .body constructorBody]
  | .constructorDeclarator => plain <| seq [
      opt typeParameters, labelled .name identifier, formalParameters]
  | .constructorBody => plain <| seq [
      leftBrace, opt explicitConstructorInvocation, opt statements, rightBrace]
  | .explicitConstructorInvocation => plain <| seq [
      oneOf [seq [opt typeArguments, oneOf [thisWord, superWord]],
        seq [labelled .object primaryExpression, dot, opt typeArguments, superWord]], argumentList,
      semicolon]
  | .scopedIdentifier => plain (seq [qualifiedName, dot, labelled .name identifier])
  | .fieldDeclaration => plain <| seq [
      opt modifiers, labelled .type unannotatedType, variableDeclaratorList, semicolon]
  | .recordDeclaration => plain <| seq [
      opt modifiers, recordWord, labelled .name identifier, opt typeParameters, formalParameters,
      opt (labelled .interfaces superInterfaces), labelled .body classBody]
  | .annotationTypeDeclaration => plain <| seq [
      opt modifiers, atInterface, labelled .name identifier, labelled .body annotationTypeBody]
  | .annotationTypeBody => plain (seq [leftBrace, opt annotationTypeMembers, rightBrace])
  | .annotationTypeElementDeclaration => plain <| seq [
      opt modifiers, labelled .type unannotatedType,
      labelled .name (oneOf [identifier, reservedIdentifier]), leftParen, rightParen,
      opt dimensions, opt defaultValue, semicolon]
  | .defaultValue => plain (seq [defaultWord, elementValue])
  | .interfaceDeclaration => plain <| seq [
      opt modifiers, interfaceWord, labelled .name identifier, opt typeParameters,
      opt extendsInterfaces, opt permits, labelled .body interfaceBody]
  | .extendsInterfaces => plain (seq [extendsWord, typeList])
  | .interfaceBody => plain (seq [leftBrace, opt interfaceMembers, rightBrace])
  | .constantDeclaration => plain <| seq [
      opt modifiers, labelled .type unannotatedType, variableDeclaratorList, semicolon]
  | .variableDeclaratorList => plain (seq [variableDeclarator, opt moreDeclarators])
  | .variableDeclarator => plain <| seq [
      variableDeclaratorId, opt (seq [assign, variableInitializer])]
  | .variableDeclaratorId => plain <| seq [
      labelled .name (oneOf [identifier, reservedIdentifier, underscore]), opt dimensions]
  | .arrayInitializer => plain <| seq [
      leftBrace, opt (seq [variableInitializer, opt moreInitializers]), opt comma, rightBrace]
  | .anyType => plain (oneOf [unannotatedType, annotatedType])
  | .unannotatedType => plain (oneOf [simpleType, arrayType])
  | .annotatedType => plain (seq [annotationUses, unannotatedType])
  | .scopedTypeIdentifier => plain <| seq [
      oneOf [typeName, scopedTypeIdentifier, genericType], dot, opt annotationUses, typeName]
  | .genericType => favoured 10 (seq [oneOf [typeName, scopedTypeIdentifier], typeArguments])
  | .arrayType => plain (seq [labelled .element unannotatedType, dimensions])
  | .integralType => plain (oneOf [byteWord, shortWord, intWord, longWord, charWord])
  | .floatingPointType => plain (oneOf [floatWord, doubleWord])
  | .methodHeader => plain <| seq [
      opt (seq [typeParameters, opt annotationUses]), labelled .type unannotatedType,
      methodDeclarator, opt throws]
  | .methodDeclarator => plain <| seq [
      labelled .name (oneOf [identifier, reservedIdentifier]), formalParameters, opt dimensions]
  | .formalParameters => plain <| seq [
      leftParen,
      oneOf [receiverParameter,
        seq [opt (seq [receiverParameter, comma]),
          opt (seq [oneOf [formalParameter, spreadParameter], opt moreParameters])]], rightParen]
  | .formalParameter => plain <| seq [
      opt modifiers, labelled .type unannotatedType, variableDeclaratorId]
  | .receiverParameter => plain <| seq [
      opt annotationUses, unannotatedType, opt receiverQualifiers, thisWord]
  | .spreadParameter => plain (seq [opt modifiers, unannotatedType, ellipsis, variableDeclarator])
  | .throws => plain (seq [throwsWord, anyType, opt moreTypes])
  | .localVariableDeclaration => plain <| seq [
      opt modifiers, labelled .type unannotatedType, variableDeclaratorList, semicolon]
  | .methodDeclaration => plain <| seq [
      opt modifiers, methodHeader, oneOf [labelled .body block, semicolon]]
  | .compactConstructorDeclaration => plain <| seq [
      opt modifiers, labelled .name identifier, labelled .body block]
  | .reservedIdentifier => ranked (-3) <| renamed (.lexeme .identifier) <| oneOf [
      openWord, moduleWord, recordWord, withWord, yieldWord, sealedWord]
  | .toplevelStatements => oneOrMore .toplevelStatements toplevelStatement
  | .stringParts => oneOrMore .stringParts <| oneOf [
      stringFragment, escapeSequence, stringInterpolation]
  | .textBlockParts => oneOrMore .textBlockParts <| oneOf [
      textBlockFragment, textEscapeSequence, stringInterpolation]
  | .moreCastTypes => oneOrMore .moreCastTypes (seq [ampersand, labelled .type anyType])
  | .moreInferredParameters => oneOrMore .moreInferredParameters <| seq [
      comma, oneOf [identifier, reservedIdentifier]]
  | .annotationUses => oneOrMore .annotationUses annotationUse
  | .dimensionsExprs => oneOrMore .dimensionsExprs dimensionsExpr
  | .moreExpressions => oneOrMore .moreExpressions (seq [comma, expression])
  | .moreTypeArguments => oneOrMore .moreTypeArguments (seq [comma, oneOf [anyType, wildcard]])
  | .emptyDimensions => oneOrMore .emptyDimensions <| seq [
      opt annotationUses, leftBracket, rightBracket]
  | .switchGroups => oneOrMore .switchGroups switchBlockStatementGroup
  | .switchRules => oneOrMore .switchRules switchRule
  | .switchLabels => oneOrMore .switchLabels (seq [switchLabel, colon])
  | .statements => oneOrMore .statements statement
  | .moreRecordComponents => oneOrMore .moreRecordComponents <| seq [
      comma, oneOf [recordPatternComponent, recordPattern]]
  | .catchClauses => oneOrMore .catchClauses catchClause
  | .moreCatchTypes => oneOrMore .moreCatchTypes (seq [bar, unannotatedType])
  | .moreResources => oneOrMore .moreResources (seq [semicolon, resource])
  | .moreElementPairs => oneOrMore .moreElementPairs (seq [comma, elementValuePair])
  | .moreElementValues => oneOrMore .moreElementValues (seq [comma, elementValue])
  | .moduleDirectives => oneOrMore .moduleDirectives moduleDirective
  | .requiresModifiers => oneOrMore .requiresModifiers requiresModifier
  | .moreModules => oneOrMore .moreModules (seq [comma, qualifiedName])
  | .moreEnumConstants => oneOrMore .moreEnumConstants (seq [comma, enumConstant])
  | .classMembers => oneOrMore .classMembers classMember
  | .modifierList => oneOrMore .modifierList <| oneOf [
      annotationUse, publicWord, protectedWord, privateWord, abstractWord, staticWord, finalWord,
      strictfpWord, defaultWord, synchronizedWord, nativeWord, transientWord, volatileWord,
      sealedWord, nonSealed]
  | .moreTypeParameters => oneOrMore .moreTypeParameters (seq [comma, typeParameter])
  | .moreBounds => oneOrMore .moreBounds (seq [ampersand, anyType])
  | .moreTypes => oneOrMore .moreTypes (seq [comma, anyType])
  | .annotationTypeMembers => oneOrMore .annotationTypeMembers <| oneOf [
      annotationTypeElementDeclaration, constantDeclaration, classDeclaration, interfaceDeclaration,
      enumDeclaration, annotationTypeDeclaration, semicolon]
  | .interfaceMembers => oneOrMore .interfaceMembers <| oneOf [
      constantDeclaration, enumDeclaration, methodDeclaration, classDeclaration,
      interfaceDeclaration, recordDeclaration, annotationTypeDeclaration, semicolon]
  | .moreDeclarators => oneOrMore .moreDeclarators (seq [comma, variableDeclarator])
  | .moreInitializers => oneOrMore .moreInitializers (seq [comma, variableInitializer])
  | .moreParameters => oneOrMore .moreParameters <| seq [
      comma, oneOf [formalParameter, spreadParameter]]
  | .receiverQualifiers => oneOrMore .receiverQualifiers (seq [identifier, dot])

/-- The flat productions of a rule. -/
def productions (r : Rule) : List Production := r.definition.productions r

end Rule

end TypeGraph.Java
