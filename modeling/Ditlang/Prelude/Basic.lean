import Ditlang.Heap.Basic
import Ditlang.Prelude.Drivers

/-!
# Ditlang.Prelude

What every dit finds in its scope: the functions `print`, `str`, `append` and `len`, and the Langs
Python and JavaScript.
-/

namespace Ditlang
namespace Prelude

def python : List (String × String) :=
  [("executable_path", "python3"),
    ("file_extension", "py"),
    ("function_wrap_left", "def reserved_name(exe_ditlang):"),
    ("function_wrap_right", ""),
    ("export_string", ""),
    ("triangle_expr_left", "exe_ditlang(\"\"\""),
    ("triangle_expr_right", "\"\"\")"),
    ("circle_expr_left", "\"\"\" + str("),
    ("circle_expr_right", ") + \"\"\""),
    ("guest_daemon", pythonDriver)]

def javaScript : List (String × String) :=
  [("executable_path", "node"),
    ("file_extension", "js"),
    ("function_wrap_left", "async function reserved_name(exe_ditlang) \x7b"),
    ("function_wrap_right", "\x7d"),
    ("export_string", "module.exports = \x7b reserved_name \x7d;"),
    ("triangle_expr_left", "(await exe_ditlang(`"),
    ("triangle_expr_right", "`))"),
    ("circle_expr_left", "$\x7b"),
    ("circle_expr_right", "\x7d"),
    ("guest_daemon", javaScriptDriver)]

/-- Binds a name in a container to a value of its type. -/
def bind (h : Heap) (owner : ContainerId) (name : String) (ty : TypeSpec) (v : Value) : Heap :=
  let (s, h) := h.newSlot { Slot.declare name (.scalar ty) with value := v }
  h.attach owner name s

/-- A parameter that takes every value. -/
def anyParam (name : String) : Param :=
  ⟨name, .scalar .thing⟩

/-- The parameters and the result of a built-in function. -/
def signature : Builtin → List Param × Option Declared
  | .print => ([anyParam "value"], none)
  | .str => ([anyParam "value"], some (.scalar .str))
  | .append => ([⟨"list", .listOf .thing⟩, anyParam "value"], none)
  | .len => ([anyParam "value"], some (.scalar .num))

def builtinName : Builtin → String
  | .print => "print"
  | .str => "str"
  | .append => "append"
  | .len => "len"

def addBuiltin (prelude : ContainerId) (h : Heap) (b : Builtin) : Heap :=
  let (params, ret) := signature b
  let (f, h) := h.alloc
    { name := some (builtinName b)
      kind := .func { params, ret, lang := .ditlang, native := some b }
      scope := some prelude }
  bind h prelude (builtinName b) .func (.funcRef f)

def addLang (prelude : ContainerId) (h : Heap) (lang : String × List (String × String)) : Heap :=
  let (name, props) := lang
  let (c, h) := h.alloc { name := some name, kind := .lang, scope := some prelude }
  let h := props.foldl (fun h (prop, text) => bind h c prop .str (.str text)) h
  bind h prelude name .lang (.langRef c)

/-- A store that holds the prelude, and the container of the prelude. -/
def install : ContainerId × Heap :=
  let (prelude, h) := Heap.empty.alloc { name := some "prelude", kind := .prelude }
  let h := [Builtin.print, .str, .append, .len].foldl (addBuiltin prelude) h
  let h := [("Python", python), ("JavaScript", javaScript)].foldl (addLang prelude) h
  (prelude, h)

end Prelude
end Ditlang
