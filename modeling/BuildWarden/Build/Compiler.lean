import BuildWarden.Build.Choice
/-!
# Compilers

Compiler families. Those of Windows select a generator of project files; those of Unix select a C
and a C++ compiler by name.
-/

namespace BuildWarden

/-- A release of Visual Studio. -/
inductive Studio where
  | studio2022
  | studio2019
  | studio2017
  | studio2015
  deriving DecidableEq, Repr

/-- The width of the programs a compiler produces. -/
inductive Width where
  | bits64
  | bits32
  deriving DecidableEq, Repr

/-- A compiler family. -/
inductive Compiler where
  | gcc
  | clang
  | studio (release : Studio) (width : Width)
  | mingw
  deriving DecidableEq, Repr

/-- The short name of a release. -/
def Studio.name : Studio → String
  | studio2022 => "mvsc22"
  | studio2019 => "mvsc19"
  | studio2017 => "mvsc17"
  | studio2015 => "mvsc15"

/-- The generator of project files. Recent releases name the architecture apart, earlier ones in the
name of the generator. -/
def Studio.generator : Studio → Width → String
  | studio2022, .bits64 => "-G \"Visual Studio 17 2022\" -A x64"
  | studio2022, .bits32 => "-G \"Visual Studio 17 2022\" -A Win32"
  | studio2019, .bits64 => "-G \"Visual Studio 16 2019\" -A x64"
  | studio2019, .bits32 => "-G \"Visual Studio 16 2019\" -A Win32"
  | studio2017, .bits64 => "-G \"Visual Studio 15 2017 Win64\""
  | studio2017, .bits32 => "-G \"Visual Studio 15 2017\""
  | studio2015, .bits64 => "-G \"Visual Studio 14 2015 Win64\""
  | studio2015, .bits32 => "-G \"Visual Studio 14 2015\""

namespace Compiler

/-- How the family is named. -/
def name : Compiler → String
  | gcc => "gcc"
  | clang => "clang"
  | studio release .bits64 => release.name
  | studio release .bits32 => release.name ++ "_32"
  | mingw => "mingw64"

/-- All families, in the order in which messages list them. -/
def families : List Compiler :=
  [gcc, clang,
    studio .studio2022 .bits64, studio .studio2022 .bits32,
    studio .studio2019 .bits64, studio .studio2019 .bits32,
    studio .studio2017 .bits64, studio .studio2017 .bits32,
    studio .studio2015 .bits64, studio .studio2015 .bits32,
    mingw]

/-- The compilers by the names they may be given. -/
def choices : Choices Compiler :=
  ⟨"compiler", families.map fun compiler => (compiler.name, compiler)⟩

/-- The platform on which the family exists. -/
def platform : Compiler → Platform
  | gcc | clang => .unix
  | studio _ _ | mingw => .windows

/-- Whether the family exists on the platform. -/
def permittedOn (compiler : Compiler) (platform : Platform) : Bool :=
  compiler.platform = platform

/-- The fault of a family that does not exist on the platform. -/
def refusal (compiler : Compiler) (platform : Platform) : Fault :=
  .unsupportedCompiler compiler.name platform

/-- The family taken where none is named. -/
def defaultFor : Platform → Compiler
  | .unix => gcc
  | .windows => studio .studio2022 .bits64

/-- How a family is handed to the configuration step. -/
inductive Selection where
  /-- Arguments that name a generator -/
  | generator (arguments : String)
  /-- The C and the C++ compiler -/
  | executables (c cxx : String)

/-- What the family selects. -/
def selection : Compiler → Selection
  | gcc => .executables "gcc" "g++"
  | clang => .executables "clang" "clang++"
  | studio release width => .generator (release.generator width)
  | mingw => .generator "-G \"MinGW Makefiles\""

end Compiler
end BuildWarden
