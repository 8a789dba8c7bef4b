import GuestBoundary.Kind

/-!
# The functions of the interface

Native code calls the runtime through a table of functions.  `Function` lists those that are
there, with the name, the parameters and the result of each; `standardNames` lists every slot of
the table in order, also those whose function takes its arguments in a way that cannot be offered
here.  A name of the table without a function has a stub that raises.
-/

namespace GuestBoundary.Interface

/-- How a call finds the method that it runs. -/
inductive CallMode where
  /-- The implementation that the receiver's class selects. -/
  | virtual
  /-- The named method itself, on a receiver of a named class. -/
  | nonvirtual
  /-- A static method. -/
  | static
  deriving DecidableEq

/-- Who owns a field. -/
inductive FieldMode where
  | perObject
  | static
  deriving DecidableEq

/-- What a function is passed, after the environment. -/
inductive Param where
  /-- A reference. -/
  | handle
  /-- A method or field number. -/
  | member
  /-- Text that ends at a zero byte, or no text. -/
  | text
  /-- A primitive. -/
  | primitive (type : Primitive)
  /-- One slot per argument of a method, or none at all. -/
  | arguments
  /-- Where to note whether a copy was made, or nowhere. -/
  | copyFlag
  /-- A buffer handed out before. -/
  | buffer
  /-- Memory to write elements to, or none. -/
  | target (type : Primitive)
  /-- Elements in memory, or none. -/
  | source (type : Primitive)
  /-- Names, descriptors and native functions, or none. -/
  | natives
  deriving DecidableEq

/-- What a function answers. -/
inductive Reply where
  | nothing
  | handle
  | member
  | primitive (type : Primitive)
  /-- A buffer, or none. -/
  | buffer
  /-- The code of a sort of reference. -/
  | refKind
  deriving DecidableEq

/-- The functions that are there. -/
inductive Function where
  | getVersion
  | isVirtualThread
  | newGlobalRef
  | deleteGlobalRef
  | newWeakGlobalRef
  | deleteWeakGlobalRef
  | newLocalRef
  | deleteLocalRef
  | pushLocalFrame
  | popLocalFrame
  | ensureLocalCapacity
  | isSameObject
  | getObjectRefType
  | throw
  | throwNew
  | exceptionOccurred
  | exceptionDescribe
  | exceptionClear
  | exceptionCheck
  | fatalError
  | findClass
  | getSuperclass
  | isAssignableFrom
  | getObjectClass
  | isInstanceOf
  | allocObject
  | newObject
  | getMethodId (mode : FieldMode)
  | call (mode : CallMode) (result : Kind)
  | getFieldId (mode : FieldMode)
  | getField (mode : FieldMode) (kind : Kind)
  | setField (mode : FieldMode) (kind : Kind)
  | newString
  | getStringLength
  | getStringChars
  | releaseStringChars
  | newStringUtf
  | getStringUtfLength
  | getStringUtfLengthAsLong
  | getStringUtfChars
  | releaseStringUtfChars
  | getStringRegion
  | getStringUtfRegion
  | getStringCritical
  | releaseStringCritical
  | getArrayLength
  | newObjectArray
  | getObjectArrayElement
  | setObjectArrayElement
  | newArray (type : Primitive)
  | getArrayElements (type : Primitive)
  | releaseArrayElements (type : Primitive)
  | getArrayRegion (type : Primitive)
  | setArrayRegion (type : Primitive)
  | getPrimitiveArrayCritical
  | releasePrimitiveArrayCritical
  | registerNatives
  | unregisterNatives
  | monitorEnter
  | monitorExit
  | fromReflectedMethod
  | fromReflectedField
  | toReflectedMethod
  | toReflectedField
  deriving DecidableEq

/-- The word for a primitive type in function names. -/
def primitiveWord : Primitive → String
  | .boolean => "Boolean"
  | .byte => "Byte"
  | .char => "Char"
  | .short => "Short"
  | .int => "Int"
  | .float => "Float"
  | .long => "Long"
  | .double => "Double"

/-- The word for a kind in function names. -/
def kindWord : Kind → String
  | .primitive p => primitiveWord p
  | .object => "Object"
  | .void => "Void"

/-- The primitive types in the order of the function table. -/
def tablePrimitives : List Primitive :=
  [.boolean, .byte, .char, .short, .int, .long, .float, .double]

/-- The kinds of fields in the order of the function table. -/
def tableFieldKinds : List Kind := .object :: tablePrimitives.map Kind.primitive

/-- The kinds of results in the order of the function table. -/
def tableResultKinds : List Kind := tableFieldKinds ++ [.void]

def CallMode.word : CallMode → String
  | virtual => ""
  | nonvirtual => "Nonvirtual"
  | static => "Static"

def FieldMode.word : FieldMode → String
  | perObject => ""
  | static => "Static"

def FieldMode.isStatic : FieldMode → Bool
  | perObject => false
  | static => true

namespace Function

/-- The name in the table. -/
def name : Function → String
  | getVersion => "GetVersion"
  | isVirtualThread => "IsVirtualThread"
  | newGlobalRef => "NewGlobalRef"
  | deleteGlobalRef => "DeleteGlobalRef"
  | newWeakGlobalRef => "NewWeakGlobalRef"
  | deleteWeakGlobalRef => "DeleteWeakGlobalRef"
  | newLocalRef => "NewLocalRef"
  | deleteLocalRef => "DeleteLocalRef"
  | pushLocalFrame => "PushLocalFrame"
  | popLocalFrame => "PopLocalFrame"
  | ensureLocalCapacity => "EnsureLocalCapacity"
  | isSameObject => "IsSameObject"
  | getObjectRefType => "GetObjectRefType"
  | throw => "Throw"
  | throwNew => "ThrowNew"
  | exceptionOccurred => "ExceptionOccurred"
  | exceptionDescribe => "ExceptionDescribe"
  | exceptionClear => "ExceptionClear"
  | exceptionCheck => "ExceptionCheck"
  | fatalError => "FatalError"
  | findClass => "FindClass"
  | getSuperclass => "GetSuperclass"
  | isAssignableFrom => "IsAssignableFrom"
  | getObjectClass => "GetObjectClass"
  | isInstanceOf => "IsInstanceOf"
  | allocObject => "AllocObject"
  | newObject => "NewObjectA"
  | getMethodId mode => "Get" ++ mode.word ++ "MethodID"
  | call mode result => "Call" ++ mode.word ++ kindWord result ++ "MethodA"
  | getFieldId mode => "Get" ++ mode.word ++ "FieldID"
  | getField mode kind => "Get" ++ mode.word ++ kindWord kind ++ "Field"
  | setField mode kind => "Set" ++ mode.word ++ kindWord kind ++ "Field"
  | newString => "NewString"
  | getStringLength => "GetStringLength"
  | getStringChars => "GetStringChars"
  | releaseStringChars => "ReleaseStringChars"
  | newStringUtf => "NewStringUTF"
  | getStringUtfLength => "GetStringUTFLength"
  | getStringUtfLengthAsLong => "GetStringUTFLengthAsLong"
  | getStringUtfChars => "GetStringUTFChars"
  | releaseStringUtfChars => "ReleaseStringUTFChars"
  | getStringRegion => "GetStringRegion"
  | getStringUtfRegion => "GetStringUTFRegion"
  | getStringCritical => "GetStringCritical"
  | releaseStringCritical => "ReleaseStringCritical"
  | getArrayLength => "GetArrayLength"
  | newObjectArray => "NewObjectArray"
  | getObjectArrayElement => "GetObjectArrayElement"
  | setObjectArrayElement => "SetObjectArrayElement"
  | newArray p => "New" ++ primitiveWord p ++ "Array"
  | getArrayElements p => "Get" ++ primitiveWord p ++ "ArrayElements"
  | releaseArrayElements p => "Release" ++ primitiveWord p ++ "ArrayElements"
  | getArrayRegion p => "Get" ++ primitiveWord p ++ "ArrayRegion"
  | setArrayRegion p => "Set" ++ primitiveWord p ++ "ArrayRegion"
  | getPrimitiveArrayCritical => "GetPrimitiveArrayCritical"
  | releasePrimitiveArrayCritical => "ReleasePrimitiveArrayCritical"
  | registerNatives => "RegisterNatives"
  | unregisterNatives => "UnregisterNatives"
  | monitorEnter => "MonitorEnter"
  | monitorExit => "MonitorExit"
  | fromReflectedMethod => "FromReflectedMethod"
  | fromReflectedField => "FromReflectedField"
  | toReflectedMethod => "ToReflectedMethod"
  | toReflectedField => "ToReflectedField"

/-- Every function. -/
def all : List Function :=
  [getVersion, isVirtualThread, newGlobalRef, deleteGlobalRef, newWeakGlobalRef,
    deleteWeakGlobalRef, newLocalRef, deleteLocalRef, pushLocalFrame, popLocalFrame,
    ensureLocalCapacity, isSameObject, getObjectRefType, throw, throwNew, exceptionOccurred,
    exceptionDescribe, exceptionClear, exceptionCheck, fatalError, findClass, getSuperclass,
    isAssignableFrom, getObjectClass, isInstanceOf, allocObject, newObject, newString,
    getStringLength, getStringChars, releaseStringChars, newStringUtf, getStringUtfLength,
    getStringUtfLengthAsLong, getStringUtfChars, releaseStringUtfChars, getStringRegion,
    getStringUtfRegion, getStringCritical, releaseStringCritical, getArrayLength, newObjectArray,
    getObjectArrayElement, setObjectArrayElement, getPrimitiveArrayCritical,
    releasePrimitiveArrayCritical, registerNatives, unregisterNatives, monitorEnter, monitorExit,
    fromReflectedMethod, fromReflectedField, toReflectedMethod, toReflectedField,
    getMethodId .perObject, getMethodId .static, getFieldId .perObject, getFieldId .static] ++
  [CallMode.virtual, .nonvirtual, .static].flatMap (fun mode => tableResultKinds.map (call mode)) ++
  [FieldMode.perObject, .static].flatMap (fun mode =>
    tableFieldKinds.map (getField mode) ++ tableFieldKinds.map (setField mode)) ++
  tablePrimitives.flatMap fun p =>
    [newArray p, getArrayElements p, releaseArrayElements p, getArrayRegion p, setArrayRegion p]

/-- The function of a name. -/
def ofName? (s : String) : Option Function := all.find? fun f => f.name == s

/-- How a value of a kind is passed. -/
def valueParam : Kind → Param
  | .primitive p => .primitive p
  | .object => .handle
  | .void => .handle

/-- How a value of a kind is answered. -/
def valueReply : Kind → Reply
  | .primitive p => .primitive p
  | .object => .handle
  | .void => .nothing

/-- What the function is passed, after the environment. -/
def params : Function → List Param
  | getVersion => []
  | isVirtualThread => [.handle]
  | newGlobalRef => [.handle]
  | deleteGlobalRef => [.handle]
  | newWeakGlobalRef => [.handle]
  | deleteWeakGlobalRef => [.handle]
  | newLocalRef => [.handle]
  | deleteLocalRef => [.handle]
  | pushLocalFrame => [.primitive .int]
  | popLocalFrame => [.handle]
  | ensureLocalCapacity => [.primitive .int]
  | isSameObject => [.handle, .handle]
  | getObjectRefType => [.handle]
  | throw => [.handle]
  | throwNew => [.handle, .text]
  | exceptionOccurred => []
  | exceptionDescribe => []
  | exceptionClear => []
  | exceptionCheck => []
  | fatalError => [.text]
  | findClass => [.text]
  | getSuperclass => [.handle]
  | isAssignableFrom => [.handle, .handle]
  | getObjectClass => [.handle]
  | isInstanceOf => [.handle, .handle]
  | allocObject => [.handle]
  | newObject => [.handle, .member, .arguments]
  | getMethodId _ => [.handle, .text, .text]
  | call .virtual _ => [.handle, .member, .arguments]
  | call .nonvirtual _ => [.handle, .handle, .member, .arguments]
  | call .static _ => [.handle, .member, .arguments]
  | getFieldId _ => [.handle, .text, .text]
  | getField _ _ => [.handle, .member]
  | setField _ kind => [.handle, .member, valueParam kind]
  | newString => [.source .char, .primitive .int]
  | getStringLength => [.handle]
  | getStringChars => [.handle, .copyFlag]
  | releaseStringChars => [.handle, .buffer]
  | newStringUtf => [.text]
  | getStringUtfLength => [.handle]
  | getStringUtfLengthAsLong => [.handle]
  | getStringUtfChars => [.handle, .copyFlag]
  | releaseStringUtfChars => [.handle, .buffer]
  | getStringRegion => [.handle, .primitive .int, .primitive .int, .target .char]
  | getStringUtfRegion => [.handle, .primitive .int, .primitive .int, .target .byte]
  | getStringCritical => [.handle, .copyFlag]
  | releaseStringCritical => [.handle, .buffer]
  | getArrayLength => [.handle]
  | newObjectArray => [.primitive .int, .handle, .handle]
  | getObjectArrayElement => [.handle, .primitive .int]
  | setObjectArrayElement => [.handle, .primitive .int, .handle]
  | newArray _ => [.primitive .int]
  | getArrayElements _ => [.handle, .copyFlag]
  | releaseArrayElements _ => [.handle, .buffer, .primitive .int]
  | getArrayRegion p => [.handle, .primitive .int, .primitive .int, .target p]
  | setArrayRegion p => [.handle, .primitive .int, .primitive .int, .source p]
  | getPrimitiveArrayCritical => [.handle, .copyFlag]
  | releasePrimitiveArrayCritical => [.handle, .buffer, .primitive .int]
  | registerNatives => [.handle, .natives, .primitive .int]
  | unregisterNatives => [.handle]
  | monitorEnter => [.handle]
  | monitorExit => [.handle]
  | fromReflectedMethod => [.handle]
  | fromReflectedField => [.handle]
  | toReflectedMethod => [.handle, .member, .primitive .boolean]
  | toReflectedField => [.handle, .member, .primitive .boolean]

/-- What the function answers. -/
def reply : Function → Reply
  | getVersion => .primitive .int
  | isVirtualThread => .primitive .boolean
  | newGlobalRef => .handle
  | deleteGlobalRef => .nothing
  | newWeakGlobalRef => .handle
  | deleteWeakGlobalRef => .nothing
  | newLocalRef => .handle
  | deleteLocalRef => .nothing
  | pushLocalFrame => .primitive .int
  | popLocalFrame => .handle
  | ensureLocalCapacity => .primitive .int
  | isSameObject => .primitive .boolean
  | getObjectRefType => .refKind
  | throw => .primitive .int
  | throwNew => .primitive .int
  | exceptionOccurred => .handle
  | exceptionDescribe => .nothing
  | exceptionClear => .nothing
  | exceptionCheck => .primitive .boolean
  | fatalError => .nothing
  | findClass => .handle
  | getSuperclass => .handle
  | isAssignableFrom => .primitive .boolean
  | getObjectClass => .handle
  | isInstanceOf => .primitive .boolean
  | allocObject => .handle
  | newObject => .handle
  | getMethodId _ => .member
  | call _ result => valueReply result
  | getFieldId _ => .member
  | getField _ kind => valueReply kind
  | setField _ _ => .nothing
  | newString => .handle
  | getStringLength => .primitive .int
  | getStringChars => .buffer
  | releaseStringChars => .nothing
  | newStringUtf => .handle
  | getStringUtfLength => .primitive .int
  | getStringUtfLengthAsLong => .primitive .long
  | getStringUtfChars => .buffer
  | releaseStringUtfChars => .nothing
  | getStringRegion => .nothing
  | getStringUtfRegion => .nothing
  | getStringCritical => .buffer
  | releaseStringCritical => .nothing
  | getArrayLength => .primitive .int
  | newObjectArray => .handle
  | getObjectArrayElement => .handle
  | setObjectArrayElement => .nothing
  | newArray _ => .handle
  | getArrayElements _ => .buffer
  | releaseArrayElements _ => .nothing
  | getArrayRegion _ => .nothing
  | setArrayRegion _ => .nothing
  | getPrimitiveArrayCritical => .buffer
  | releasePrimitiveArrayCritical => .nothing
  | registerNatives => .primitive .int
  | unregisterNatives => .primitive .int
  | monitorEnter => .primitive .int
  | monitorExit => .primitive .int
  | fromReflectedMethod => .member
  | fromReflectedField => .member
  | toReflectedMethod => .handle
  | toReflectedField => .handle

end Function

/-! ## The table -/

/-- Slots in front of the first function; they hold no address. -/
def reservedSlots : Nat := 4

/-- The names of the calls of one mode: per result with listed, packed and array arguments. -/
def callNames (mode : CallMode) : List String :=
  tableResultKinds.flatMap fun k =>
    ["", "V", "A"].map fun suffix => "Call" ++ mode.word ++ kindWord k ++ "Method" ++ suffix

/-- Every name of the table in the order of its slots. -/
def standardNames : List String :=
  ["GetVersion", "DefineClass", "FindClass", "FromReflectedMethod", "FromReflectedField",
    "ToReflectedMethod", "GetSuperclass", "IsAssignableFrom", "ToReflectedField", "Throw",
    "ThrowNew", "ExceptionOccurred", "ExceptionDescribe", "ExceptionClear", "FatalError",
    "PushLocalFrame", "PopLocalFrame", "NewGlobalRef", "DeleteGlobalRef", "DeleteLocalRef",
    "IsSameObject", "NewLocalRef", "EnsureLocalCapacity", "AllocObject", "NewObject", "NewObjectV",
    "NewObjectA", "GetObjectClass", "IsInstanceOf", "GetMethodID"] ++
  callNames .virtual ++ callNames .nonvirtual ++
  ["GetFieldID"] ++
  tableFieldKinds.map (fun k => "Get" ++ kindWord k ++ "Field") ++
  tableFieldKinds.map (fun k => "Set" ++ kindWord k ++ "Field") ++
  ["GetStaticMethodID"] ++ callNames .static ++
  ["GetStaticFieldID"] ++
  tableFieldKinds.map (fun k => "GetStatic" ++ kindWord k ++ "Field") ++
  tableFieldKinds.map (fun k => "SetStatic" ++ kindWord k ++ "Field") ++
  ["NewString", "GetStringLength", "GetStringChars", "ReleaseStringChars", "NewStringUTF",
    "GetStringUTFLength", "GetStringUTFChars", "ReleaseStringUTFChars", "GetArrayLength",
    "NewObjectArray", "GetObjectArrayElement", "SetObjectArrayElement"] ++
  tablePrimitives.map (fun p => "New" ++ primitiveWord p ++ "Array") ++
  tablePrimitives.map (fun p => "Get" ++ primitiveWord p ++ "ArrayElements") ++
  tablePrimitives.map (fun p => "Release" ++ primitiveWord p ++ "ArrayElements") ++
  tablePrimitives.map (fun p => "Get" ++ primitiveWord p ++ "ArrayRegion") ++
  tablePrimitives.map (fun p => "Set" ++ primitiveWord p ++ "ArrayRegion") ++
  ["RegisterNatives", "UnregisterNatives", "MonitorEnter", "MonitorExit", "GetJavaVM",
    "GetStringRegion", "GetStringUTFRegion", "GetPrimitiveArrayCritical",
    "ReleasePrimitiveArrayCritical", "GetStringCritical", "ReleaseStringCritical",
    "NewWeakGlobalRef", "DeleteWeakGlobalRef", "ExceptionCheck", "NewDirectByteBuffer",
    "GetDirectBufferAddress", "GetDirectBufferCapacity", "GetObjectRefType", "GetModule",
    "IsVirtualThread", "GetStringUTFLengthAsLong"]

/-- The slot of a name. -/
def slotOf? (s : String) : Option Nat :=
  (standardNames.idxOf? s).map (· + reservedSlots)

/-- What a name stands for. -/
inductive Lookup where
  | implemented (function : Function)
  /-- A slot of the table whose function raises. -/
  | unimplemented
  /-- Not a name of the table. -/
  | unknown
  deriving DecidableEq

/-- What a name stands for. -/
def lookup (s : String) : Lookup :=
  match Function.ofName? s with
  | some f => .implemented f
  | none => if standardNames.contains s then .unimplemented else .unknown

/-- The table: nothing stands in the reserved slots, and behind them stands what each name stands
for. -/
def table : List (Option Lookup) :=
  List.replicate reservedSlots none ++ standardNames.map fun s => some (lookup s)

namespace Lookup

def word : Lookup → String
  | implemented _ => "implemented"
  | unimplemented => "unimplemented"
  | unknown => "unknown"

def isImplemented : Lookup → Bool
  | implemented _ => true
  | _ => false

/-- The name under which a stub complains. -/
def stubName (l : Lookup) (s : String) : String :=
  match l with
  | unknown => "<unknown>"
  | _ => s

end Lookup

end GuestBoundary.Interface
