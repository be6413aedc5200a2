import BuildWarden.Text.Search
/-!
# Texts written into sources

The licence every source carries, how it is recognised, and the source unit made for a header
that has none.
-/

namespace BuildWarden.Guideline

/-- A source whose first lines hold this text is licensed. -/
def licenseMarker : String := "GNU Lesser General Public License"

/-- The end of a header comment that a new licence replaces. -/
def headerTerminator : String := "***********/"

/-- The number of first lines in which the marker is looked for. -/
def licenseSearchLines : Nat := 40

/-- The lines of the licence. -/
def licenseLines : List String := [
  "",
  "/**",
  " *",
  " *  Copyright 2005-2024 Pierre-Henri WUILLEMIN (@LIP6) and Christophe GONZALES (@AMU)",
  " *   \x7bprenom.nom\x7d_at_lip6.fr",
  " *",
  " *  This library is free software: you can redistribute it and/or modify",
  " *  it under the terms of the GNU Lesser General Public License as published by",
  " *  the Free Software Foundation, either version 3 of the License, or",
  " *  (at your option) any later version.",
  " *",
  " *  This library is distributed in the hope that it will be useful,",
  " *  but WITHOUT ANY WARRANTY; without even the implied warranty of",
  " *  MERCHANTABILITY or FITNESS FOR A PARTICULAR PURPOSE.  See the",
  " *  GNU Lesser General Public License for more details.",
  " *",
  " *  You should have received a copy of the GNU Lesser General Public License",
  " *  along with this library.  If not, see <http://www.gnu.org/licenses/>.",
  " *",
  " */",
  "",
  ""]

/-- The licence. -/
def licenseTemplate : String :=
  Text.joined "\n" licenseLines

/-- The lines between the licence and the name of the included header. -/
def unitHeadLines : List String := [
  "",
  "",
  "/**",
  " * @file",
  " * @brief Class to include at least once this header",
  " *",
  " * @author Pierre-Henri WUILLEMIN (@LIP6) and Christophe GONZALES (@AMU)",
  " */",
  "",
  "#include <"]

/-- What stands between the licence and the name of the included header. -/
def unitHead : String :=
  Text.joined "\n" unitHeadLines

/-- The source unit of a header: licensed, and all it does is include the header. -/
def unitFor (header : String) : String :=
  licenseTemplate ++ unitHead ++ header ++ ">\n\n"

end BuildWarden.Guideline
