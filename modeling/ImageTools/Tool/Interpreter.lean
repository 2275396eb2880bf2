import ImageTools.Text.Bytewise

/-!
# The first line of a script

A file that begins with `#!` is run by the program that its first line
names, with at most one argument. Only the start of the file is looked at. An
argument may be cut off there, but not the program's name.
-/

set_option autoImplicit false

namespace ImageTools.Tool

structure Interpreter where
  path : String
  argument : Option String
  deriving DecidableEq, Repr

namespace Interpreter

def headSize : Nat := 256

def isBlank (b : UInt8) : Bool := b == 32 || b == 9

def isEnd (b : UInt8) : Bool := isBlank b || b == 0

def head (bytes : ByteArray) : List UInt8 :=
  let cs := (bytes.extract 0 headSize).toList
  cs ++ List.replicate (headSize - cs.length) 0

def line? (rest : List UInt8) : Option (List UInt8) :=
  if (rest.takeWhile (· != 0)).contains 10 then some (rest.takeWhile (· != 10))
  else
    let seen := rest.dropLast
    if (seen.dropWhile isBlank).any isEnd then some seen else none

def ofLine? (line : List UInt8) : Option Interpreter :=
  let line := (line.reverse.dropWhile isBlank).reverse.dropWhile isBlank
  if line.isEmpty then none
  else
    let argument := match line.dropWhile fun b => !isEnd b with
      | [] => none
      | b :: r =>
        let rest := (b :: r).dropWhile isBlank
        if b = 0 || rest.isEmpty then none else some (Text.bytewise (rest.takeWhile (· != 0)))
    some { path := Text.bytewise (line.takeWhile fun b => !isEnd b), argument := argument }

def ofBytes? (bytes : ByteArray) : Option Interpreter :=
  match head bytes with
  | 35 :: 33 :: rest => (line? rest).bind ofLine?
  | _ => none

end Interpreter

end ImageTools.Tool
