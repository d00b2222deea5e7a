import Polyloft.Catalog

/-!
# Polyloft.Catalog.Standard

The catalog of the language itself: its keywords, built-in types, global functions and packages.
Parameters are written in the syntax of the language.
-/

namespace Polyloft.Catalog.Standard

/-- A function with its parameters, return type and description. -/
def fn (name : String) (params : List String) (returns description : String) : CatalogFunction :=
  { name, params := Parameter.parseList (", ".intercalate params).toList 0, returns, description }

/-- A package whose members know it as their owner. -/
def package (name description : String) (functions : List CatalogFunction)
    (constants : List (String × String × String × String)) : CatalogPackage :=
  { name := .str name
    description
    functions := functions.map fun f => { f with owner := .str name }
    constants := constants.map fun (c, type, value, text) => ⟨c, type, value, text, .str name⟩ }

/-- A built-in type whose methods know it as their owner. -/
def type (name : String) (typeParams : List String) (description : String)
    (methods : List CatalogFunction) : CatalogType :=
  { name := .str name
    typeParams
    description
    methods := methods.map fun f => { f with owner := .str name } }

/-- The keywords and what they are for. -/
def keywords : List (String × String) :=
  [("var", "Declares a mutable variable. `var x = 10` or `var x: Int = 10`."),
    ("let", "Declares a variable bound once per scope. `let name = \"Ada\"`."),
    ("const", "Declares a constant. A constant cannot be reassigned."),
    ("final",
      "Declares a final variable or field. It cannot be reassigned after initialisation."),
    ("def", "Defines a function or method. `def name(param: Type) -> ReturnType:` ... `end`."),
    ("class", "Defines a class. `class Name < Parent implements Iface:` ... `end`."),
    ("interface", "Defines an interface listing method signatures."),
    ("import", "Imports symbols from a module. `import path.module \x7b A, B \x7d`."),
    ("implements", "Declares the interfaces a class implements."),
    ("abstract", "Marks a class or method as abstract."),
    ("sealed", "Restricts which classes may extend a class."),
    ("return", "Returns a value from the enclosing function."),
    ("if", "Conditional block. `if cond:` ... `elif cond:` ... `else:` ... `end`."),
    ("elif", "Additional condition of an `if` chain."),
    ("else", "Fallback branch of an `if` chain."),
    ("for", "Iterates a collection or range. `for x in 0...10:` ... `end`."),
    ("in", "Separates the loop variable from the iterable in a `for` loop."),
    ("loop", "Repeats a block until `break`. `loop:` ... `end`."),
    ("break", "Leaves the innermost loop."),
    ("continue", "Skips to the next iteration of the innermost loop."),
    ("end", "Terminates a block."),
    ("do", "Opens a block body for `thread spawn` and lambdas."),
    ("true", "Boolean true."),
    ("false", "Boolean false."),
    ("nil", "The absent value."),
    ("null", "Alias of `nil`."),
    ("thread",
      "Thread operations: `spawn` creates a new thread, `join` waits for a thread to complete."),
    ("spawn",
      "Creates a new thread that executes the block. " ++
        "Use `return` to return a value from the thread."),
    ("join", "Waits for the specified thread to complete and returns its result."),
    ("public", "Visibility modifier: accessible everywhere."),
    ("pub", "Short form of `public`."),
    ("private", "Visibility modifier: accessible only inside the declaring class."),
    ("priv", "Short form of `private`."),
    ("protected", "Visibility modifier: accessible in the class and its subclasses."),
    ("prot", "Short form of `protected`."),
    ("static", "Declares a member that belongs to the class rather than an instance."),
    ("this", "Refers to the current instance inside a class, enum or record method."),
    ("super", "Refers to the parent class implementation."),
    ("instanceof", "Tests whether a value is an instance of a type."),
    ("enum", "Defines an enumeration. Values are listed one per line in upper case."),
    ("record",
      "Defines an immutable record type with an automatic constructor. " ++
        "`record Point(x: Int, y: Int)`."),
    ("try", "Starts an error handling block. `try:` ... `catch e:` ... `finally:` ... `end`."),
    ("catch", "Handles an error raised in the `try` block."),
    ("finally", "Runs after `try`/`catch` whether or not an error was raised."),
    ("throw", "Raises an error."),
    ("defer", "Schedules a statement to run when the enclosing function returns."),
    ("switch",
      "Selects a branch by value. `switch value:` `case a:` ... `default:` ... `end`."),
    ("case", "A branch of a `switch`."),
    ("default", "The fallback branch of a `switch`."),
    ("where", "Filters a `for` loop. `for x in xs where x > 0:`."),
    ("from", "Names the source of an import."),
    ("as", "Renames an imported symbol."),
    ("export", "Makes a declaration visible to importing modules."),
    ("extends", "Declares a parent type."),
    ("out", "Marks an output parameter.")]

/-- The names of the built-in types. -/
def typeNames : List String :=
  ["String", "Int", "Float", "Double", "Bool", "Void", "Any", "Array", "Map", "List", "Set",
    "Deque", "Tuple", "Pair", "Range", "Bytes", "Promise", "CompletableFuture", "HttpServer",
    "HttpRequest", "HttpResponse"]

/-- Functions that are called without a package. -/
def globals : List CatalogFunction :=
  [fn "println" ["...values: Any"] "Void" "Prints the values followed by a newline.",
   fn "print" ["...values: Any"] "Void" "Prints the values without a trailing newline.",
   fn "len" ["value: Any"] "Int" "Returns the length of a string or collection.",
   fn "str" ["value: Any"] "String" "Converts a value to its string form.",
   fn "int" ["value: Any"] "Int" "Converts a value to an integer.",
   fn "float" ["value: Any"] "Float" "Converts a value to a float.",
   fn "bool" ["value: Any"] "Bool" "Converts a value to a boolean.",
   fn "typeof" ["value: Any"] "String" "Returns the runtime type name of a value.",
   fn "input" ["prompt?: String"] "String" "Reads a line from standard input.",
   fn "range" ["start: Int", "end?: Int"] "Range" "Creates an integer range.",
   fn "async" ["task: Any"] "Promise"
     "Runs a lambda asynchronously and returns a promise of its result."]

/-- The package `Sys`. -/
def sysPackage : CatalogPackage :=
  package "Sys" "System utilities."
    [fn "time" [] "Int" "Milliseconds since the epoch.",
     fn "sleep" ["millis: Int"] "Void" "Suspends the current thread.",
     fn "exit" ["code: Int"] "Void" "Terminates the program with an exit code.",
     fn "args" [] "Array<String>" "Command-line arguments.",
     fn "env" ["name: String"] "String" "Reads an environment variable.",
     fn "random" [] "Float" "A random float in [0, 1)."]
    [("VERSION", "String", "\"1.0\"",
        "Runtime version.")]

/-- The package `Math`. -/
def mathPackage : CatalogPackage :=
  package "Math" "Mathematical functions and constants."
    [fn "sqrt" ["x: Float"] "Float" "Square root.",
     fn "pow" ["base: Float", "exponent: Float"] "Float" "Raises base to exponent.",
     fn "abs" ["x: Float"] "Float" "Absolute value.",
     fn "floor" ["x: Float"] "Int" "Largest integer not greater than x.",
     fn "ceil" ["x: Float"] "Int" "Smallest integer not less than x.",
     fn "round" ["x: Float"] "Int" "Nearest integer.",
     fn "max" ["a: Float", "b: Float"] "Float" "Larger of two values.",
     fn "min" ["a: Float", "b: Float"] "Float" "Smaller of two values.",
     fn "sin" ["x: Float"] "Float" "Sine of x (radians).",
     fn "cos" ["x: Float"] "Float" "Cosine of x (radians).",
     fn "random" [] "Float" "A random float in [0, 1)."]
    [("PI", "Float", "3.141592653589793",
        "Ratio of a circle's circumference to its diameter."),
      ("E", "Float", "2.718281828459045",
        "Euler's number.")]

/-- The package `IO`. -/
def ioPackage : CatalogPackage :=
  package "IO" "File and console input/output."
    [fn "readFile" ["path: String"] "String" "Reads a whole file as text.",
     fn "writeFile" ["path: String", "content: String"] "Void"
       "Writes text to a file, replacing it.",
     fn "exists" ["path: String"] "Bool" "Tests whether a path exists.",
     fn "readLines" ["path: String"] "Array<String>" "Reads a file as a list of lines."]
    []

/-- The package `Net`. -/
def netPackage : CatalogPackage :=
  package "Net" "Networking helpers."
    [fn "createServer" ["port: Int"] "HttpServer" "Creates an HTTP server bound to a port.",
     fn "get" ["url: String"] "HttpResponse" "Performs an HTTP GET request."]
    []

/-- The type `String`. -/
def stringType : CatalogType :=
  type "String" [] "Immutable text."
    [fn "length" [] "Int" "Number of characters.",
     fn "toUpperCase" [] "String" "Upper-case copy.",
     fn "toLowerCase" [] "String" "Lower-case copy.",
     fn "substring" ["start: Int", "end?: Int"] "String" "Slice of the string.",
     fn "split" ["separator: String"] "Array<String>" "Splits on a separator.",
     fn "trim" [] "String" "Copy without surrounding whitespace.",
     fn "contains" ["text: String"] "Bool" "Tests for a substring.",
     fn "startsWith" ["prefix: String"] "Bool" "Tests the prefix.",
     fn "endsWith" ["suffix: String"] "Bool" "Tests the suffix.",
     fn "replace" ["target: String", "replacement: String"] "String" "Replaces every occurrence.",
     fn "indexOf" ["text: String"] "Int" "Index of the first occurrence or -1.",
     fn "charAt" ["index: Int"] "String" "Character at an index.",
     fn "isEmpty" [] "Bool" "True when the string has no characters.",
     fn "toString" [] "String" "The string itself."]

/-- The type `Array`. -/
def arrayType : CatalogType :=
  type "Array" ["T"] "Growable indexed sequence."
    [fn "get" ["index: Int"] "T" "Element at an index.",
     fn "set" ["index: Int", "value: T"] "Void" "Replaces the element at an index.",
     fn "push" ["item: T"] "Void" "Appends an element.",
     fn "add" ["item: T"] "Void" "Appends an element.",
     fn "pop" [] "T" "Removes and returns the last element.",
     fn "remove" ["index: Int"] "T" "Removes the element at an index.",
     fn "first" [] "T" "First element.",
     fn "last" [] "T" "Last element.",
     fn "length" [] "Int" "Number of elements.",
     fn "size" [] "Int" "Number of elements.",
     fn "isEmpty" [] "Bool" "True when there are no elements.",
     fn "contains" ["item: T"] "Bool" "Membership test.",
     fn "indexOf" ["item: T"] "Int" "Index of an element or -1.",
     fn "join" ["separator: String"] "String" "Joins the elements into a string.",
     fn "map" ["fn: Any"] "Array<Any>" "Applies a function to every element.",
     fn "filter" ["fn: Any"] "Array<T>" "Keeps the elements matching a predicate.",
     fn "sort" [] "Array<T>" "Sorted copy.",
     fn "reverse" [] "Array<T>" "Reversed copy.",
     fn "slice" ["start: Int", "end?: Int"] "Array<T>" "Sub-array.",
     fn "clear" [] "Void" "Removes every element.",
     fn "toString" [] "String" "String representation."]

/-- The type `List`. -/
def listType : CatalogType :=
  type "List" ["T"] "Linked sequence."
    [fn "get" ["index: Int"] "T" "Element at an index.",
     fn "add" ["item: T"] "Void" "Appends an element.",
     fn "remove" ["index: Int"] "T" "Removes the element at an index.",
     fn "size" [] "Int" "Number of elements.",
     fn "isEmpty" [] "Bool" "True when there are no elements.",
     fn "contains" ["item: T"] "Bool" "Membership test.",
     fn "first" [] "T" "First element.",
     fn "last" [] "T" "Last element.",
     fn "toArray" [] "Array<T>" "Copies into an array.",
     fn "clear" [] "Void" "Removes every element.",
     fn "toString" [] "String" "String representation."]

/-- The type `Map`. -/
def mapType : CatalogType :=
  type "Map" ["K", "V"] "Hash map from keys to values."
    [fn "get" ["key: K"] "V" "Value stored under a key.",
     fn "set" ["key: K", "value: V"] "Void" "Stores a value under a key.",
     fn "put" ["key: K", "value: V"] "Void" "Stores a value under a key.",
     fn "has" ["key: K"] "Bool" "Key membership test.",
     fn "containsKey" ["key: K"] "Bool" "Key membership test.",
     fn "remove" ["key: K"] "V" "Removes a key and returns its value.",
     fn "keys" [] "Array<K>" "All keys.",
     fn "values" [] "Array<V>" "All values.",
     fn "size" [] "Int" "Number of entries.",
     fn "isEmpty" [] "Bool" "True when there are no entries.",
     fn "clear" [] "Void" "Removes every entry.",
     fn "toString" [] "String" "String representation."]

/-- The type `Set`. -/
def setType : CatalogType :=
  type "Set" ["T"] "Unordered collection of unique elements."
    [fn "add" ["item: T"] "Bool" "Adds an element; false when already present.",
     fn "remove" ["item: T"] "Bool" "Removes an element.",
     fn "contains" ["item: T"] "Bool" "Membership test.",
     fn "size" [] "Int" "Number of elements.",
     fn "isEmpty" [] "Bool" "True when there are no elements.",
     fn "toArray" [] "Array<T>" "Copies into an array.",
     fn "clear" [] "Void" "Removes every element.",
     fn "toString" [] "String" "String representation."]

/-- The type `Deque`. -/
def dequeType : CatalogType :=
  type "Deque" ["T"] "Double-ended queue."
    [fn "pushFront" ["item: T"] "Void" "Adds to the front.",
     fn "pushBack" ["item: T"] "Void" "Adds to the back.",
     fn "popFront" [] "T" "Removes from the front.",
     fn "popBack" [] "T" "Removes from the back.",
     fn "peekFront" [] "T" "Reads the front element.",
     fn "peekBack" [] "T" "Reads the back element.",
     fn "size" [] "Int" "Number of elements.",
     fn "isEmpty" [] "Bool" "True when there are no elements.",
     fn "toString" [] "String" "String representation."]

/-- The type `Pair`. -/
def pairType : CatalogType :=
  type "Pair" ["A", "B"] "Two values."
    [fn "first" [] "A" "First component.",
     fn "second" [] "B" "Second component.",
     fn "toString" [] "String" "String representation."]

/-- The type `Range`. -/
def rangeType : CatalogType :=
  type "Range" [] "Integer range produced by `a...b`."
    [fn "start" [] "Int" "First value.",
     fn "end" [] "Int" "Last value.",
     fn "contains" ["value: Int"] "Bool" "Membership test.",
     fn "size" [] "Int" "Number of values.",
     fn "toArray" [] "Array<Int>" "Materialises the range.",
     fn "toString" [] "String" "String representation."]

/-- The type `Promise`. -/
def promiseType : CatalogType :=
  type "Promise" ["T"] "Result of an asynchronous computation."
    [fn "await" [] "T" "Blocks until the value is available.",
     fn "then" ["fn: Any"] "Promise<Any>" "Chains a continuation.",
     fn "isDone" [] "Bool" "True once resolved.",
     fn "toString" [] "String" "String representation."]

/-- The type `Bytes`. -/
def bytesType : CatalogType :=
  type "Bytes" [] "Immutable byte sequence."
    [fn "length" [] "Int" "Number of bytes.",
     fn "get" ["index: Int"] "Int" "Byte at an index.",
     fn "toString" [] "String" "Decodes as UTF-8."]

/-- The type `HttpServer`. -/
def httpServerType : CatalogType :=
  type "HttpServer" [] "Embedded HTTP server."
    [fn "get" ["path: String", "handler: Any"] "Void" "Registers a GET route.",
     fn "post" ["path: String", "handler: Any"] "Void" "Registers a POST route.",
     fn "start" [] "Void" "Starts serving requests.",
     fn "stop" [] "Void" "Stops the server."]

/-- The type `HttpRequest`. -/
def httpRequestType : CatalogType :=
  type "HttpRequest" [] "Incoming HTTP request."
    [fn "path" [] "String" "Request path.",
     fn "method" [] "String" "HTTP method.",
     fn "body" [] "String" "Request body.",
     fn "header" ["name: String"] "String" "Header value.",
     fn "query" ["name: String"] "String" "Query parameter value."]

/-- The type `HttpResponse`. -/
def httpResponseType : CatalogType :=
  type "HttpResponse" [] "HTTP response."
    [fn "status" [] "Int" "Status code.",
     fn "body" [] "String" "Response body.",
     fn "header" ["name: String"] "String" "Header value.",
     fn "send" ["body: String"] "Void" "Sends a response body."]

end Polyloft.Catalog.Standard

namespace Polyloft.Catalog

/-- The catalog of the language. -/
def standard : Catalog :=
  { keywords := Standard.keywords
    typeNames := Standard.typeNames
    globals := Standard.globals
    packages := [Standard.sysPackage, Standard.mathPackage, Standard.ioPackage, Standard.netPackage]
    types :=
      [Standard.stringType, Standard.arrayType, Standard.listType,
        Standard.mapType, Standard.setType, Standard.dequeType,
        Standard.pairType, Standard.rangeType, Standard.promiseType,
        Standard.bytesType, Standard.httpServerType, Standard.httpRequestType,
        Standard.httpResponseType] }

end Polyloft.Catalog
