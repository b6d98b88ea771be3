import VirtualFiles.Dump
import VirtualFiles.Emulator.Basic
import VirtualFiles.Pak.File

/-!
# Failures of commands

## Main definitions

* `Failure` — why a command failed
* `Failure.message` — the failure in words
* `Failure.trace` — the failure and its causes in words
-/

namespace VirtualFiles

/-- The failure and its causes in words, the failure first. -/
def ReadError.trace (e : ReadError) : List String :=
  e.message ::
    match e with
    | .shortRead .. => []
    | .backing _ _ _ cause => [cause.message]

/-- The failure and its causes in words, the failure first. -/
def PlanError.trace (e : PlanError) : List String :=
  e.message ::
    match e with
    | .blockExtent _ cause | .headerExtent cause => [cause.message]
    | _ => []

/-- The failure and its causes in words, the failure first. -/
def LayoutError.trace (e : LayoutError) : List String :=
  match e with
  | .plan cause => cause.trace
  | .openBacking _ _ cause => [e.message, cause.message]
  | .assemble cause => [e.message, cause.message]
  | _ => [e.message]

/-- The failure and its causes in words, the failure first. -/
def CreateError.trace (e : CreateError) : List String :=
  e.message ::
    match e with
    | .cacheConflict _ => []
    | .buildFailed _ message => [message]
    | .layout _ cause => cause.trace

/-- The failure and its causes in words, the failure first. -/
def DumpError.trace (e : DumpError) : List String :=
  e.message ::
    match e with
    | .createDirectory _ cause | .createFile _ cause | .write _ cause => [cause.message]
    | .read _ cause => cause.trace
    | .unexpectedEnd .. => []

/-- The failure and its causes in words, the failure first. -/
def Pak.OpenError.trace (e : Pak.OpenError) : List String :=
  e.message ::
    match e with
    | .openFile cause | .mapFile cause => [cause.message]
    | .offsetOutOfRange .. => []
    | .parseEntry cause => [cause.message]

namespace CommandLine

/-- Why a command failed. -/
inductive Failure
  | readHeader (path : Path) (cause : IoError)
  | compose (path : Path) (cause : CreateError)
  | dump (path : Path) (cause : DumpError)
  | plan (cause : PlanError)
  | openFile (path : Path) (cause : IoError)
  | probe (path : Path) (cause : IoError)
  | pakEntry (path : Path) (cause : Pak.OpenError)
  deriving DecidableEq

/-- The failure in words. -/
def Failure.message : Failure → String
  | .readHeader path _ => "failed to read header file '" ++ path.display ++ "'"
  | .compose path _ => "failed to compose '" ++ path.display ++ "'"
  | .dump path _ => "failed to dump '" ++ path.display ++ "'"
  | .plan _ => "invalid layout"
  | .openFile path _ => "failed to open '" ++ path.display ++ "'"
  | .probe path _ => "failed to probe '" ++ path.display ++ "'"
  | .pakEntry path _ => "failed to read PAK entry from '" ++ path.display ++ "'"

/-- The failure and its causes in words, the failure first. -/
def Failure.trace (e : Failure) : List String :=
  e.message ::
    match e with
    | .readHeader _ cause | .openFile _ cause | .probe _ cause => [cause.message]
    | .compose _ cause => cause.trace
    | .dump _ cause => cause.trace
    | .plan cause => cause.trace
    | .pakEntry _ cause => cause.trace

end CommandLine

end VirtualFiles
