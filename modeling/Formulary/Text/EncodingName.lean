import Formulary.Text.CodePage
import Formulary.Text.Encoding

/-!
# Names of encodings

What is known of the encoding with a given name: how to read it, or why it is not read.  Names are
in small letters, with a low line between their parts.
-/

namespace Formulary.Text

/-! ## 1. Names by kind -/

/-- Names of the encoding in which bytes are code points. -/
def latinNames : EncodingNames :=
  ⟨["iso8859_1", "latin_1", "charmap", "raw_unicode_escape", "unicode_escape"],
   ["cp819", "csisolatin1", "ibm819", "iso8859", "iso8859_1", "iso_8859_1", "iso_8859_1_1987",
    "iso_ir_100", "l1", "latin", "latin1"]⟩

/-- Names of encodings of which only the basic characters are used. -/
def basicNames : EncodingNames :=
  ⟨["ascii", "hz", "iso2022_jp", "iso2022_jp_1", "iso2022_jp_2", "iso2022_jp_2004", "iso2022_jp_3",
    "iso2022_jp_ext", "utf_8", "utf_8_sig"],
   ["ansi_x3.4_1968", "ansi_x3_4_1968", "ansi_x3.4_1986", "cp367", "csascii", "ibm367",
    "iso646_us", "iso_646.irv_1991", "iso_ir_6", "us", "us_ascii", "hzgb", "hz_gb", "hz_gb_2312",
    "csiso2022jp", "iso2022jp", "iso_2022_jp", "iso2022jp_1", "iso_2022_jp_1", "iso2022jp_2",
    "iso_2022_jp_2", "iso_2022_jp_2004", "iso2022jp_2004", "iso2022jp_3", "iso_2022_jp_3",
    "iso2022jp_ext", "iso_2022_jp_ext", "u8", "utf", "utf8", "utf8_ucs2", "utf8_ucs4", "cp65001"]⟩

def multibyteNames : EncodingNames :=
  ⟨["big5", "big5hkscs", "cp932", "cp949", "cp950", "euc_jis_2004", "euc_jisx0213", "euc_jp",
    "euc_kr", "gb18030", "gb2312", "gbk", "iso2022_kr", "johab", "shift_jis", "shift_jis_2004",
    "shift_jisx0213", "utf_16", "utf_16_be", "utf_16_le", "utf_32", "utf_32_be", "utf_32_le",
    "utf_7"],
   ["big5_tw", "csbig5", "x_mac_trad_chinese", "big5_hkscs", "hkscs", "ms932", "mskanji",
    "ms_kanji", "ms949", "uhc", "ms950", "jisx0213", "eucjis2004", "euc_jis2004", "eucjisx0213",
    "eucjp", "ujis", "u_jis", "euckr", "korean", "ksc5601", "ks_c_5601", "ks_c_5601_1987",
    "ksx1001", "ks_x_1001", "x_mac_korean", "gb18030_2000", "chinese", "csiso58gb231280",
    "euc_cn", "euccn", "eucgb2312_cn", "gb2312_1980", "gb2312_80", "iso_ir_58",
    "x_mac_simp_chinese", "cp936", "ms936", "csiso2022kr", "iso2022kr", "iso_2022_kr", "cp1361",
    "ms1361", "csshiftjis", "shiftjis", "sjis", "s_jis", "x_mac_japanese", "shiftjis2004",
    "sjis_2004", "s_jis_2004", "shiftjisx0213", "sjisx0213", "s_jisx0213", "u16", "utf16",
    "unicodebigunmarked", "utf_16be", "unicodelittleunmarked", "utf_16le", "u32", "utf32",
    "utf_32be", "utf_32le", "u7", "utf7", "unicode_1_1_utf_7"]⟩

/-- Names of encodings with other bytes for the basic characters. -/
def foreignNames : EncodingNames :=
  ⟨["cp037", "cp1026", "cp1140", "cp273", "cp424", "cp500", "cp864", "cp875", "mac_arabic",
    "mac_farsi"],
   ["csibm037", "ebcdic_cp_ca", "ebcdic_cp_nl", "ebcdic_cp_us", "ebcdic_cp_wt", "ibm037",
    "ibm039", "csibm1026", "ibm1026", "ibm1140", "ibm273", "csibm273", "csibm424",
    "ebcdic_cp_he", "ibm424", "csibm500", "ebcdic_cp_be", "ebcdic_cp_ch", "ibm500", "csibm864",
    "ibm864"]⟩

/-- Names of ways to write bytes as other bytes, which are no encodings of texts. -/
def transformNames : EncodingNames :=
  ⟨["base64_codec", "bz2_codec", "hex_codec", "quopri_codec", "rot_13", "uu_codec", "zlib_codec"],
   ["base64", "base_64", "bz2", "hex", "quopri", "quoted_printable", "quotedprintable", "rot13",
    "uu", "zip", "zlib"]⟩

/-! ## 2. What a name stands for -/

inductive Scheme where
  | readable (encoding : Encoding)
  | multibyte
  | foreign
  | transform
  deriving DecidableEq, Repr

def Scheme.ofName? (name : String) : Option Scheme :=
  if latinNames.contains name then some (.readable .latin1)
  else if basicNames.contains name then some (.readable .ascii)
  else if multibyteNames.contains name then some .multibyte
  else if foreignNames.contains name then some .foreign
  else if transformNames.contains name then some .transform
  else
    (codePages.find? fun page => page.names.contains name).map fun page =>
      .readable (.page page.upper)

end Formulary.Text
