/-!
Names of the classes every machine provides.
-/

namespace StackCoroutine.Names

def object : String := "std/Object"
def text : String := "std/String"
def throwable : String := "std/Throwable"
def exception : String := "std/Exception"
def runtimeException : String := "std/RuntimeException"
def illegalState : String := "std/IllegalStateException"
def nullPointer : String := "std/NullPointerException"
def arithmetic : String := "std/ArithmeticException"
def classCast : String := "std/ClassCastException"
def indexOutOfBounds : String := "std/IndexOutOfBoundsException"
def illegalMonitorState : String := "std/IllegalMonitorStateException"
def constructor : String := "<init>"

end StackCoroutine.Names
