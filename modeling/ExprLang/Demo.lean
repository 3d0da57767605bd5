import ExprLang.Expr

/-!
# Demo programs

Five small programs, each well typed.

* `greet` asks for a name and greets it.
* `fib` reads a number and prints the Fibonacci number with that index.
* `sum` adds numbers, one on each line, until an empty line.
* `parity` reads a number and tells whether it is even.
* `divide` reads two numbers and prints quotient and remainder.

`find?` looks a demo up by its name.
-/

set_option autoImplicit false

namespace ExprLang.Demo

open ExprLang.Expr (int string)

/-- A number on a line of its own. -/
def readInt : Expr := .cast .int .input

/-- The text of a value; of an integer its decimal form. -/
def decimal (e : Expr) : Expr := .cast .string e

def greet : Program where
  functions := []
  main :=
    .letIn "_" (.print (string "What is your name?"))
      (.letIn "name" .input
        (.print (.concat [string "Hello, ", .var "name", string "!"])))

def fibFunction : Definition where
  name := "fib"
  params := [("n", .int)]
  result := .int
  body :=
    .ite (.binop .lt (.var "n") (int 2))
      (.var "n")
      (.binop .add
        (.call "fib" [.binop .sub (.var "n") (int 1)])
        (.call "fib" [.binop .sub (.var "n") (int 2)]))

def fib : Program where
  functions := [fibFunction]
  main :=
    .letIn "n" readInt
      (.print (.concat
        [string "fib(", decimal (.var "n"), string ") = ", decimal (.call "fib" [.var "n"])]))

/-- Reads lines until an empty one and adds them to its argument. -/
def sumFunction : Definition where
  name := "sum_from"
  params := [("acc", .int)]
  result := .int
  body :=
    .letIn "line" .input
      (.ite (.binop .eq (.var "line") (string ""))
        (.var "acc")
        (.call "sum_from" [.binop .add (.var "acc") (.cast .int (.var "line"))]))

def sum : Program where
  functions := [sumFunction]
  main := .call "sum_from" [int 0]

/-- Counts down to zero, where the answer is `base`, by way of the function `other`. -/
def parityFunction (name : Name) (base : Bool) (other : Name) : Definition where
  name := name
  params := [("n", .int)]
  result := .bool
  body :=
    .ite (.binop .eq (.var "n") (int 0))
      (.bool base)
      (.call other [.binop .sub (.var "n") (int 1)])

def parity : Program where
  functions := [parityFunction "even" true "odd", parityFunction "odd" false "even"]
  main := decimal (.call "even" [readInt])

def divide : Program where
  functions := []
  main :=
    .letIn "a" readInt
      (.letIn "b" readInt
        (.print (.concat
          [decimal (.binop .div (.var "a") (.var "b")), string " remainder ",
            decimal (.binop .mod (.var "a") (.var "b"))])))

/-- All demos in the order in which they are listed. -/
def all : List (String × Program) :=
  [("greet", greet), ("fib", fib), ("sum", sum), ("parity", parity), ("divide", divide)]

def names : List String := all.map Prod.fst

def find? (name : String) : Option Program := all.lookup name

end ExprLang.Demo
