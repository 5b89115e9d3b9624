/-! The texts of the bundled declaration libraries. -/
namespace Fragment.Library

/-- Lines, each ended by a line break. -/
def text (lines : List String) : String := String.join (lines.map (· ++ "\n"))

/-- The base of the language: numbers, texts, arrays and elementary mathematics. -/
def es5 : String := text [
  "// Core value types and globals available to every fragment.",
  "",
  "declare const NaN: number",
  "declare const Infinity: number",
  "",
  "declare function parseFloat(string: string): number",
  "declare function parseInt(string: string, radix?: number): number",
  "declare function isNaN(number: number): boolean",
  "declare function isFinite(number: number): boolean",
  "",
  "interface String \x7b",
  "\tlength: number",
  "\tcharAt(pos: number): string",
  "\tcharCodeAt(index: number): number",
  "\tconcat(...strings: string[]): string",
  "\tindexOf(searchString: string, position?: number): number",
  "\tlastIndexOf(searchString: string, position?: number): number",
  "\treplace(searchValue: string, replaceValue: string): string",
  "\tslice(start?: number, end?: number): string",
  "\tsplit(separator: string, limit?: number): string[]",
  "\tsubstring(start: number, end?: number): string",
  "\ttoLowerCase(): string",
  "\ttoUpperCase(): string",
  "\ttrim(): string",
  "\ttoString(): string",
  "\tvalueOf(): string",
  "\x7d",
  "",
  "interface Number \x7b",
  "\ttoFixed(fractionDigits?: number): string",
  "\ttoString(radix?: number): string",
  "\tvalueOf(): number",
  "\x7d",
  "",
  "interface Boolean \x7b",
  "\ttoString(): string",
  "\tvalueOf(): boolean",
  "\x7d",
  "",
  "interface Math \x7b",
  "\tE: number",
  "\tLN10: number",
  "\tLN2: number",
  "\tLOG2E: number",
  "\tLOG10E: number",
  "\tPI: number",
  "\tSQRT1_2: number",
  "\tSQRT2: number",
  "\tabs(x: number): number",
  "\tacos(x: number): number",
  "\tasin(x: number): number",
  "\tatan(x: number): number",
  "\tatan2(y: number, x: number): number",
  "\tceil(x: number): number",
  "\tcos(x: number): number",
  "\texp(x: number): number",
  "\tfloor(x: number): number",
  "\tlog(x: number): number",
  "\tmax(...values: number[]): number",
  "\tmin(...values: number[]): number",
  "\tpow(x: number, y: number): number",
  "\trandom(): number",
  "\tround(x: number): number",
  "\tsin(x: number): number",
  "\tsqrt(x: number): number",
  "\ttan(x: number): number",
  "\x7d",
  "",
  "declare const Math: Math"]

/-- More members of texts and numbers, promises, and more mathematics. -/
def es2015 : String := text [
  "/// <reference lib=\"es5\" />",
  "",
  "// Promises for async fragments, and the ES2015 additions to String and Math.",
  "",
  "interface Promise<T> \x7b\x7d",
  "",
  "interface String \x7b",
  "\tstartsWith(searchString: string, position?: number): boolean",
  "\tendsWith(searchString: string, endPosition?: number): boolean",
  "\tincludes(searchString: string, position?: number): boolean",
  "\trepeat(count: number): string",
  "\x7d",
  "",
  "interface Math \x7b",
  "\tacosh(x: number): number",
  "\tasinh(x: number): number",
  "\tatanh(x: number): number",
  "\tcbrt(x: number): number",
  "\tcosh(x: number): number",
  "\texpm1(x: number): number",
  "\thypot(...values: number[]): number",
  "\tlog10(x: number): number",
  "\tlog1p(x: number): number",
  "\tlog2(x: number): number",
  "\tsign(x: number): number",
  "\tsinh(x: number): number",
  "\ttanh(x: number): number",
  "\ttrunc(x: number): number",
  "\x7d"]

/-- Padding of texts. -/
def es2017 : String := text [
  "/// <reference lib=\"es2015\" />",
  "",
  "interface String \x7b",
  "\tpadStart(maxLength: number, fillString?: string): string",
  "\tpadEnd(maxLength: number, fillString?: string): string",
  "\x7d"]

/-- Trimming of one end of a text. -/
def es2019 : String := text [
  "/// <reference lib=\"es2017\" />",
  "",
  "interface String \x7b",
  "\ttrimStart(): string",
  "\ttrimEnd(): string",
  "\x7d"]

/-- Replacing all occurrences. -/
def es2021 : String := text [
  "/// <reference lib=\"es2019\" />",
  "",
  "interface String \x7b",
  "\treplaceAll(searchValue: string, replaceValue: string): string",
  "\x7d"]

/-- Everything there is. -/
def esnext : String := text [
  "/// <reference lib=\"es2021\" />"]

/-- What a page offers. -/
def dom : String := text [
  "// Browser globals a plotting host exposes to fragments.",
  "",
  "interface Performance \x7b",
  "\tnow(): number",
  "\x7d",
  "",
  "declare var performance: Performance",
  "declare var devicePixelRatio: number",
  "declare var innerWidth: number",
  "declare var innerHeight: number"]

/-- What a host process offers. -/
def host : String := text [
  "// Process-level globals of a server-side host.",
  "",
  "interface Console \x7b",
  "\tlog(...data: any[]): void",
  "\tinfo(...data: any[]): void",
  "\twarn(...data: any[]): void",
  "\terror(...data: any[]): void",
  "\x7d",
  "",
  "interface Process \x7b",
  "\tpid: number",
  "\tplatform: string",
  "\tuptime(): number",
  "\x7d",
  "",
  "declare const enum Axis \x7b",
  "\tX = 0,",
  "\tY = 1,",
  "\tZ = 2,",
  "\x7d",
  "",
  "declare var console: Console",
  "declare var process: Process"]

/-- The text of a bundled library. -/
def text? : String → Option String
  | "es5" => some es5
  | "es2015" => some es2015
  | "es2017" => some es2017
  | "es2019" => some es2019
  | "es2021" => some es2021
  | "esnext" => some esnext
  | "dom" => some dom
  | "host" => some host
  | _ => none

end Fragment.Library
