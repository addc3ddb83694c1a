import KernelGym.ErrorSimplifier
import KernelGym.Library.Dicts
import KernelGym.Library.Regex

/-! The classification of compiler output: the category of a whole text, the excerpt it rests on, and the counts
and excerpts of every category. -/

namespace KernelGym.ErrorClassifier

open Library

/-! ### Categories and patterns -/

inductive Detail
  | tvmFfiApiTensorAccessor
  | tvmFfiApiShapeview
  | tvmFfiApiDtype
  | tvmFfiApiExportMacro
  | tvmFfiApiWrongBindingFramework
  | tvmFfiApiMisuse
  | undefinedIdentifier
  | missingHeader
  | functionArgumentMismatch
  | instructionArgumentMismatch
  | invalidTypeConversion
  | invalidDeclaration
  | syntaxError
  | incompleteType
  | otherCompileError
  deriving DecidableEq, Repr

def tvmFfiMarkerRe : String := r"\btvm::ffi\b|\btvm_ffi\b|\btvm-ffi\b|\btvm/ffi\b|\btvmffi\b"

def tvmFfiApiMarkerRe : String := r"\btvm::ffi\b|\btvm/ffi\b|\btvm_ffi_dll_export_typed_func\b"

def tvmFfiTensorAccessorPatterns : List String :=
  [r"\btvm::ffi::tensor::shape\s*\(",
    r"\btvm::ffi::tensor::ndim\s*(?:\(|')",
    r"\btvm::ffi::tensor\b.*no member named '(?:data|data_ptr|shape_data|num_dims|dl_tensor)'",
    r"\bclass tvm::ffi::tensor\b.*no member named '(?:data|data_ptr|shape_data|num_dims|dl_tensor)'",
    r"\binvalid use of member function .*tvm::ffi::tensor::ndim",
    r"\bcannot convert 'tvm::ffi::tensor::ndim' from type",
    r"\btvm::ffi::tensor::get\(\) const' is protected",
    r"\bconst class tvm::ffi::object' has no member named 'ndim'",
    r"\binvalid types '<unresolved overloaded function type>\[int\]' for array subscript"]

def tvmFfiShapeviewPatterns : List String :=
  [r"\btvm::ffi::shapeview\b",
    r"\boperator==.*shapeview",
    r"\bshapeview.*operator=="]

def tvmFfiDtypePatterns : List String :=
  [r#"\b(?:struct|class)\s+dldatatype['\"]?\s+has no member named ['\"](?:type_code|type|device_type|bytes)['\"]"#,
    r#"\bno member named ['\"](?:type_code|type|device_type|bytes)['\"]\s+in\s+['\"]?(?:(?:struct|class)\s+)?dldatatype\b"#,
    r"\bdldatatype\b.*\boperator==",
    r"\boperator==.*\bdldatatype\b"]

def tvmFfiExportMacroPatterns : List String :=
  [r"\btvm_ffi_dll_export_typed_func\b",
    r#"\bpasting \"_registrar_\""#,
    r"\bdecltype' cannot resolve address of overloaded function"]

def tvmFfiWrongBindingPatterns : List String :=
  [r"\bpybind11::",
    r"\bat::tensor\b",
    r"\btorch::",
    r"\bc10::",
    r"\baten/",
    r"\brequest for member 'item' in .*\.size\("]

def undefinedIdentifierPatterns : List String :=
  [r#"\bidentifier\s+['\"][^'\"]+['\"]\s+is undefined\b"#,
    r#"\buse of undeclared identifier\s+['\"][^'\"]+['\"]"#,
    r#"['\"][^'\"]+['\"]\s+was not declared in this scope\b"#,
    r#"['\"][^'\"]+['\"]\s+has not been declared\b"#,
    r#"\bunknown type name\s+['\"][^'\"]+['\"]"#,
    r#"['\"][^'\"]+['\"]\s+does not name a type\b"#]

def missingHeaderPatterns : List String :=
  [r#"\b(?:fatal|catastrophic) error(?:\s+c1083)?:\s*(?:cannot open include file:\s*)?['\"<]?[^:\n'\">]+['\">]?:\s*no such file or directory\b"#,
    r#"\b(?:fatal|catastrophic) error:\s*['\"][^'\"]+['\"]\s+file not found\b"#,
    r#"\bcannot open include file:\s*['\"][^'\"]+['\"]"#,
    r#"\bcannot open source file\s+['\"][^'\"]+['\"]"#]

def functionArgumentMismatchPatterns : List String :=
  [r"\btoo (?:few|many) arguments (?:to function|in function call)\b",
    r"\bno matching (?:member )?function for call to\b",
    r"\bno instance of overloaded function\b.*\bmatches the argument list\b",
    r"\bfunction does not take \d+ arguments\b"]

def instructionArgumentMismatchPatterns : List String :=
  [r"\barguments? mismatch for instruction\b"]

def invalidTypeConversionPatterns : List String :=
  [r#"\binvalid conversion from\s+['\"][^'\"]+['\"]\s+to\s+['\"][^'\"]+['\"]"#,
    r#"\bcannot convert\s+['\"][^'\"]+['\"]\s+to\s+['\"][^'\"]+['\"]"#,
    r#"\bno suitable conversion(?: function)? from\s+['\"][^'\"]+['\"]\s+to\s+['\"][^'\"]+['\"](?:\s+exists)?"#,
    r#"\bargument of type\s+['\"][^'\"]+['\"]\s+is incompatible with parameter of type\s+['\"][^'\"]+['\"]"#,
    r#"\bcannot initialize a parameter of type\s+['\"][^'\"]+['\"]\s+with an (?:lvalue|rvalue) of type\s+['\"][^'\"]+['\"]"#,
    r#"\ba value of type\s+['\"][^'\"]+['\"]\s+cannot be used to initialize an entity of type\s+['\"][^'\"]+['\"]"#]

def invalidDeclarationPatterns : List String :=
  [r#"\bvariable or field\s+['\"][^'\"]+['\"]\s+declared void\b"#,
    r"\bthis declaration has no storage class or type specifier\b",
    r#"\bduplicate parameter name(?:\s+['\"][^'\"]+['\"])?\b"#,
    r"\bvariable length array cannot have static storage duration\b",
    r#"\bvariable length array declaration cannot have ['\"]?static['\"]? storage duration\b"#,
    r"\bvariable length array declaration not allowed at file scope\b",
    r#"\bvariably modified\s+['\"][^'\"]+['\"]\s+at file scope\b"#,
    r#"\bvariably modified\s+['\"][^'\"]+['\"]\s+must have automatic storage duration\b"#]

def syntaxErrorPatterns : List String :=
  [r"\bexpected primary-expression before\b",
    r"\bexpected expression\b"]

def incompleteTypePatterns : List String :=
  [r#"\bincomplete type\s+['\"][^'\"]+['\"]\s+is not allowed\b"#,
    r"\binvalid use of incomplete type\b",
    r"\b(?:variable|field)\s+has incomplete type\b",
    r"\bhas incomplete type and cannot be defined\b"]

def compilerErrorLineRe : String := r"\b(?:(?:fatal|catastrophic)\s+)?error(?:\s+c\d+)?[ \t]*:"

def compilerSourceGutterRe : String := r"^\s*\d+\s*\|"

def compilerCaretLineRe : String := r"^\s*(?:(?:\d+\s*)?\|\s*)?[\^~]+\s*$"

/-- `_COMPILE_ERROR_DETAIL_PATTERNS`, with `()` for the categories it does not have. -/
def compileErrorDetailPatterns : Detail → List String
  | .tvmFfiApiTensorAccessor => tvmFfiTensorAccessorPatterns
  | .tvmFfiApiShapeview => tvmFfiShapeviewPatterns
  | .tvmFfiApiDtype => tvmFfiDtypePatterns
  | .tvmFfiApiExportMacro => tvmFfiExportMacroPatterns
  | .tvmFfiApiWrongBindingFramework => tvmFfiWrongBindingPatterns
  | .undefinedIdentifier => undefinedIdentifierPatterns
  | .missingHeader => missingHeaderPatterns
  | .functionArgumentMismatch => functionArgumentMismatchPatterns
  | .instructionArgumentMismatch => instructionArgumentMismatchPatterns
  | .invalidTypeConversion => invalidTypeConversionPatterns
  | .invalidDeclaration => invalidDeclarationPatterns
  | .syntaxError => syntaxErrorPatterns
  | .incompleteType => incompleteTypePatterns
  | .tvmFfiApiMisuse | .otherCompileError => []

def maxCompileErrorExcerptChars : ℕ := 1000

/-! ### Lines -/

/-- `_normalize_error_text` -/
def normalizeErrorText (u : Unicode) (errorMessage : Text) : Text :=
  u.lower <| errorMessage.map fun c =>
    if c = Char.ofNat 0x2018 || c = Char.ofNat 0x2019 then '\''
    else if c = Char.ofNat 0x201c || c = Char.ofNat 0x201d then '"'
    else c

/-- `_has_pattern` -/
def hasPattern (u : Unicode) (errorText : Text) (patterns : List String) : Bool :=
  patterns.any fun pattern => (Regex.compile pattern).dotAll.search u false errorText

/-- `_is_diagnostic_error_line` -/
def isDiagnosticErrorLine (u : Unicode) (line : Text) : Bool :=
  !(Regex.compile compilerSourceGutterRe).matchesAt u false ⟨none, line, []⟩ &&
    (Regex.compile compilerErrorLineRe).search u true line

/-- `_diagnostic_error_lines` -/
def diagnosticErrorLines (u : Unicode) (errorText : Text) : List Text :=
  (splitLines errorText).filter (isDiagnosticErrorLine u)

def truncationMarker : Text := "...(truncated)...".toList

/-- `_truncate_compile_error_excerpt` -/
def truncateCompileErrorExcerpt (excerpt : Text) : Text :=
  if excerpt.length ≤ maxCompileErrorExcerptChars then excerpt
  else
    let keep := (maxCompileErrorExcerptChars - truncationMarker.length) / 2
    excerpt.take keep ++ truncationMarker ++ excerpt.drop (excerpt.length - keep)

/-- `_diagnostic_excerpt_at`, from the lines that start with the diagnostic -/
def diagnosticExcerptAt (u : Unicode) : List Text → Text
  | [] => []
  | [line] => u.strip line
  | line :: sourceLine :: following =>
    let hasFollowingCaret := match following with
      | [] => false
      | caretLine :: _ => (Regex.compile compilerCaretLineRe).matchesAt u false ⟨none, caretLine, []⟩
    let isGutterSource := (Regex.compile compilerSourceGutterRe).matchesAt u false ⟨none, sourceLine, []⟩
    let isPlainSource := sourceLine.head?.any u.isSpace && u.strip sourceLine ≠ [] &&
      !isDiagnosticErrorLine u sourceLine &&
        (hasFollowingCaret || (u.rstrip sourceLine).getLast? = some ';')
    if !(isGutterSource || isPlainSource) then u.strip line
    else u.strip line ++ '\n' :: u.rstrip sourceLine

/-- `_has_diagnostic_pattern` -/
def hasDiagnosticPattern (u : Unicode) (errorText : Text) (patterns : List String) : Bool :=
  (diagnosticErrorLines u errorText).any fun line => hasPattern u line patterns

/-! ### The category of a text -/

/-- The categories of the diagnostics that every backend shares, in the order in which they are tried. -/
def sharedDetails : List Detail :=
  [.missingHeader, .undefinedIdentifier, .functionArgumentMismatch, .instructionArgumentMismatch,
    .invalidTypeConversion, .invalidDeclaration, .syntaxError, .incompleteType]

/-- `classify_compile_error_detail` -/
def classifyCompileErrorDetail (u : Unicode) (errorMessage : Text) (backend : Option Text) : Detail :=
  if errorMessage = [] then .otherCompileError
  else
    let errorText := normalizeErrorText u errorMessage
    let backendKey := (u.lower (backend.getD [])).map fun c => if c = '-' then '_' else c
    let hasTvmFfiMarker := (Regex.compile tvmFfiMarkerRe).search u false errorText
    let hasTvmFfiApiMarker := (Regex.compile tvmFfiApiMarkerRe).search u false errorText
    let isTvmFfiBackend := backendKey = "tvm_ffi".toList
    if hasPattern u errorText tvmFfiExportMacroPatterns && (hasTvmFfiMarker || isTvmFfiBackend) then
      .tvmFfiApiExportMacro
    else if hasPattern u errorText tvmFfiWrongBindingPatterns && (hasTvmFfiMarker || isTvmFfiBackend) then
      .tvmFfiApiWrongBindingFramework
    else if hasPattern u errorText tvmFfiDtypePatterns && (hasTvmFfiMarker || isTvmFfiBackend) then .tvmFfiApiDtype
    else if hasPattern u errorText tvmFfiShapeviewPatterns then .tvmFfiApiShapeview
    else if hasPattern u errorText tvmFfiTensorAccessorPatterns && (hasTvmFfiMarker || isTvmFfiBackend) then
      .tvmFfiApiTensorAccessor
    else
      match sharedDetails.find? fun detail => hasDiagnosticPattern u errorText (compileErrorDetailPatterns detail) with
      | some detail => detail
      | none =>
        if hasTvmFfiApiMarker && " error:".toList <:+: errorText then .tvmFfiApiMisuse else .otherCompileError

/-- The index of the line that `extract_compile_error_excerpt` shows: the first diagnostic that matches the
category, or else the first one. -/
def excerptIndex (u : Unicode) (lines : List Text) (detail : Detail) : Option ℕ :=
  let normalized := lines.map (normalizeErrorText u)
  let indices := (List.range lines.length).filter fun index => isDiagnosticErrorLine u (normalized.getD index [])
  let patterns := compileErrorDetailPatterns detail
  (indices.find? fun index => !patterns.isEmpty && hasPattern u (normalized.getD index []) patterns).or indices.head?

/-- `extract_compile_error_excerpt` for a given category -/
def extractCompileErrorExcerpt (u : Unicode) (errorMessage : Text) (detail : Detail) : Option Text :=
  if detail = .otherCompileError then none
  else
    let lines := splitLines errorMessage
    (excerptIndex u lines detail).map fun index =>
      truncateCompileErrorExcerpt (diagnosticExcerptAt u (lines.drop index))

/-! ### The metadata -/

structure Group where
  count : ℕ
  truncated : Bool
  errors : List Text
  deriving DecidableEq, Repr

structure Collected where
  seen : Dict Detail (List Text) := {}
  grouped : Dict Detail (List Text) := {}

/-- One excerpt with its category, in the body of the loop. -/
def Collected.add (u : Unicode) (s : Collected) (entry : Detail × Text) : Collected :=
  let key := normalizeErrorText u entry.2
  let detailSeen := (s.seen.get entry.1).getD []
  if key ∈ detailSeen then s
  else
    let excerpts := (s.grouped.get entry.1).getD []
    { seen := s.seen.set entry.1 (detailSeen ++ [key])
      grouped := s.grouped.set entry.1 (if excerpts.length < 8 then excerpts ++ [entry.2] else excerpts) }

/-- `primary_diagnostic` -/
def primaryDiagnostic (u : Unicode) (errorText : Text) (backend : Option Text) : Option Text :=
  (extractCompileErrorExcerpt u errorText (classifyCompileErrorDetail u errorText backend)).bind fun excerpt =>
    (splitLines excerpt).head?

/-- The excerpt at the head of the lines and the category it is counted under. -/
def entryAt (u : Unicode) (primaryDetail : Detail) (primary : Option Text) (backend : Option Text)
    (lines : List Text) : Option (Detail × Text) :=
  match lines with
  | [] => none
  | line :: _ =>
    if isDiagnosticErrorLine u line then
      let excerpt := truncateCompileErrorExcerpt (diagnosticExcerptAt u lines)
      some (if primary = some (u.strip line) then primaryDetail else classifyCompileErrorDetail u excerpt backend, excerpt)
    else none

/-- The excerpts in the order of the lines. -/
def entries (u : Unicode) (errorText : Text) (backend : Option Text) : List (Detail × Text) :=
  let lines := splitLines errorText
  (List.range lines.length).filterMap fun index =>
    entryAt u (classifyCompileErrorDetail u errorText backend) (primaryDiagnostic u errorText backend) backend
      (lines.drop index)

/-- `classify_compile_error_metadata`: what it says of each category. -/
def classifyCompileErrorMetadata (u : Unicode) (errorText : Text) (backend : Option Text) (detail : Detail) :
    Option Group :=
  let collected := (entries u errorText backend).foldl (Collected.add u) {}
  (collected.grouped.get detail).map fun excerpts =>
    let count := ((collected.seen.get detail).getD []).length
    ⟨count, excerpts.length < count, excerpts⟩

end KernelGym.ErrorClassifier
