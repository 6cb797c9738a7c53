/-!
# Kinds of nodes

There is one kind of node for each production of the grammar, and one for
what the grammar could not place.
-/

namespace Offside

/-- What a node of the tree stands for. -/
inductive NodeKind where
  | wholeModule
  | moduleHeader
  | moduleName
  | exportList
  | importDecl
  | importList
  | importAlias
  | itemValue
  | itemOperator
  | itemType
  | itemTypeOperator
  | itemClass
  | itemKind
  | itemModule
  | dataMembers
  | valueDecl
  | signature
  | patternBinding
  | dataDecl
  | dataCtor
  | typeSynonym
  | newtypeDecl
  | roleDecl
  | kindSignature
  | classDecl
  | classBody
  | funDeps
  | funDep
  | instanceChain
  | instanceDecl
  | instanceBody
  | deriveDecl
  | foreignImport
  | foreignData
  | fixityDecl
  | constraints
  | constraint
  | unguardedRhs
  | guardedRhs
  | guard
  | patternGuard
  | whereClause
  | exprLiteral
  | exprVar
  | exprConstructor
  | exprOpName
  | exprHole
  | exprSection
  | exprParens
  | exprArray
  | exprRecord
  | recordField
  | exprRecordAccess
  | exprRecordUpdate
  | recordUpdateField
  | exprApp
  | typeArg
  | exprBinary
  | operator
  | exprNegate
  | exprTyped
  | exprLambda
  | exprIf
  | exprCase
  | caseBranch
  | exprLet
  | letBindings
  | exprDo
  | exprAdo
  | doBind
  | doLet
  | doDiscard
  | binderWildcard
  | binderVar
  | binderNamed
  | binderLiteral
  | binderConstructor
  | binderRecord
  | binderArray
  | binderParens
  | binderBinary
  | binderTyped
  | typeForall
  | typeVarBinding
  | typeConstrained
  | typeArrow
  | typeBinary
  | typeApp
  | typeVar
  | typeConstructor
  | typeWildcard
  | typeHole
  | typeString
  | typeInt
  | typeOpName
  | typeParens
  | typeRecord
  | typeRow
  | rowField
  | rowTail
  | typeKinded
  | error
deriving DecidableEq, Repr, Inhabited

namespace NodeKind

def all : List NodeKind :=
  [wholeModule, moduleHeader, moduleName, exportList, importDecl, importList, importAlias,
    itemValue, itemOperator, itemType, itemTypeOperator, itemClass, itemKind, itemModule,
    dataMembers, valueDecl, signature, patternBinding, dataDecl, dataCtor, typeSynonym,
    newtypeDecl, roleDecl, kindSignature, classDecl, classBody, funDeps, funDep, instanceChain,
    instanceDecl, instanceBody, deriveDecl, foreignImport, foreignData, fixityDecl, constraints,
    constraint, unguardedRhs, guardedRhs, guard, patternGuard, whereClause, exprLiteral, exprVar,
    exprConstructor, exprOpName, exprHole, exprSection, exprParens, exprArray, exprRecord,
    recordField, exprRecordAccess, exprRecordUpdate, recordUpdateField, exprApp, typeArg,
    exprBinary, operator, exprNegate, exprTyped, exprLambda, exprIf, exprCase, caseBranch,
    exprLet, letBindings, exprDo, exprAdo, doBind, doLet, doDiscard, binderWildcard, binderVar,
    binderNamed, binderLiteral, binderConstructor, binderRecord, binderArray, binderParens,
    binderBinary, binderTyped, typeForall, typeVarBinding, typeConstrained, typeArrow, typeBinary,
    typeApp, typeVar, typeConstructor, typeWildcard, typeHole, typeString, typeInt, typeOpName,
    typeParens, typeRecord, typeRow, rowField, rowTail, typeKinded, error]

def name : NodeKind → String
  | wholeModule => "Module"
  | moduleHeader => "ModuleHeader"
  | moduleName => "ModuleName"
  | exportList => "ExportList"
  | importDecl => "ImportDecl"
  | importList => "ImportList"
  | importAlias => "ImportAlias"
  | itemValue => "ItemValue"
  | itemOperator => "ItemOperator"
  | itemType => "ItemType"
  | itemTypeOperator => "ItemTypeOperator"
  | itemClass => "ItemClass"
  | itemKind => "ItemKind"
  | itemModule => "ItemModule"
  | dataMembers => "DataMembers"
  | valueDecl => "ValueDecl"
  | signature => "Signature"
  | patternBinding => "PatternBinding"
  | dataDecl => "DataDecl"
  | dataCtor => "DataCtor"
  | typeSynonym => "TypeSynonym"
  | newtypeDecl => "NewtypeDecl"
  | roleDecl => "RoleDecl"
  | kindSignature => "KindSignature"
  | classDecl => "ClassDecl"
  | classBody => "ClassBody"
  | funDeps => "FunDeps"
  | funDep => "FunDep"
  | instanceChain => "InstanceChain"
  | instanceDecl => "InstanceDecl"
  | instanceBody => "InstanceBody"
  | deriveDecl => "DeriveDecl"
  | foreignImport => "ForeignImport"
  | foreignData => "ForeignData"
  | fixityDecl => "FixityDecl"
  | constraints => "Constraints"
  | constraint => "Constraint"
  | unguardedRhs => "UnguardedRhs"
  | guardedRhs => "GuardedRhs"
  | guard => "Guard"
  | patternGuard => "PatternGuard"
  | whereClause => "WhereClause"
  | exprLiteral => "ExprLiteral"
  | exprVar => "ExprVar"
  | exprConstructor => "ExprConstructor"
  | exprOpName => "ExprOpName"
  | exprHole => "ExprHole"
  | exprSection => "ExprSection"
  | exprParens => "ExprParens"
  | exprArray => "ExprArray"
  | exprRecord => "ExprRecord"
  | recordField => "RecordField"
  | exprRecordAccess => "ExprRecordAccess"
  | exprRecordUpdate => "ExprRecordUpdate"
  | recordUpdateField => "RecordUpdateField"
  | exprApp => "ExprApp"
  | typeArg => "TypeArg"
  | exprBinary => "ExprBinary"
  | operator => "Operator"
  | exprNegate => "ExprNegate"
  | exprTyped => "ExprTyped"
  | exprLambda => "ExprLambda"
  | exprIf => "ExprIf"
  | exprCase => "ExprCase"
  | caseBranch => "CaseBranch"
  | exprLet => "ExprLet"
  | letBindings => "LetBindings"
  | exprDo => "ExprDo"
  | exprAdo => "ExprAdo"
  | doBind => "DoBind"
  | doLet => "DoLet"
  | doDiscard => "DoDiscard"
  | binderWildcard => "BinderWildcard"
  | binderVar => "BinderVar"
  | binderNamed => "BinderNamed"
  | binderLiteral => "BinderLiteral"
  | binderConstructor => "BinderConstructor"
  | binderRecord => "BinderRecord"
  | binderArray => "BinderArray"
  | binderParens => "BinderParens"
  | binderBinary => "BinderBinary"
  | binderTyped => "BinderTyped"
  | typeForall => "TypeForall"
  | typeVarBinding => "TypeVarBinding"
  | typeConstrained => "TypeConstrained"
  | typeArrow => "TypeArrow"
  | typeBinary => "TypeBinary"
  | typeApp => "TypeApp"
  | typeVar => "TypeVar"
  | typeConstructor => "TypeConstructor"
  | typeWildcard => "TypeWildcard"
  | typeHole => "TypeHole"
  | typeString => "TypeString"
  | typeInt => "TypeInt"
  | typeOpName => "TypeOpName"
  | typeParens => "TypeParens"
  | typeRecord => "TypeRecord"
  | typeRow => "TypeRow"
  | rowField => "RowField"
  | rowTail => "RowTail"
  | typeKinded => "TypeKinded"
  | error => "Error"

def ofName? (name : String) : Option NodeKind :=
  all.find? fun kind => kind.name = name

def isDecl : NodeKind → Bool
  | importDecl | valueDecl | signature | patternBinding | dataDecl | typeSynonym | newtypeDecl
  | roleDecl | kindSignature | classDecl | instanceChain | instanceDecl | deriveDecl
  | foreignImport | foreignData | fixityDecl => true
  | _ => false

def isExpr : NodeKind → Bool
  | exprLiteral | exprVar | exprConstructor | exprOpName | exprHole | exprSection | exprParens
  | exprArray | exprRecord | exprRecordAccess | exprRecordUpdate | exprApp | exprBinary
  | exprNegate | exprTyped | exprLambda | exprIf | exprCase | exprLet | exprDo | exprAdo => true
  | _ => false

def isBinder : NodeKind → Bool
  | binderWildcard | binderVar | binderNamed | binderLiteral | binderConstructor | binderRecord
  | binderArray | binderParens | binderBinary | binderTyped => true
  | _ => false

def isType : NodeKind → Bool
  | typeForall | typeConstrained | typeArrow | typeBinary | typeApp | typeVar | typeConstructor
  | typeWildcard | typeHole | typeString | typeInt | typeOpName | typeParens | typeRecord
  | typeRow | typeKinded => true
  | _ => false

end NodeKind

end Offside
