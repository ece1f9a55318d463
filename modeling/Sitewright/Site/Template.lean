import Sitewright.Text.Split

namespace Sitewright.Site

def fileOfLines (lines : List String) : String := Text.join "\n" lines ++ "\n"

def buildSettings : String := fileOfLines [
  "/** @type \x7bimport('next').NextConfig\x7d */",
  "const nextConfig = \x7b",
  "  reactStrictMode: true,",
  "\x7d;",
  "",
  "module.exports = nextConfig;"]

def styleSettings : String := fileOfLines [
  "/** @type \x7bimport('tailwindcss').Config\x7d */",
  "module.exports = \x7b",
  "  content: [",
  "    './pages/**/*.\x7bjs,ts,jsx,tsx,mdx\x7d',",
  "    './components/**/*.\x7bjs,ts,jsx,tsx,mdx\x7d',",
  "  ],",
  "  theme: \x7b",
  "    extend: \x7b\x7d,",
  "  \x7d,",
  "  plugins: [],",
  "\x7d;"]

def styleStages : String := fileOfLines [
  "module.exports = \x7b",
  "  plugins: \x7b",
  "    tailwindcss: \x7b\x7d,",
  "    autoprefixer: \x7b\x7d,",
  "  \x7d,",
  "\x7d;"]

def compilerSettings : String := fileOfLines [
  "\x7b",
  "  \"compilerOptions\": \x7b",
  "    \"target\": \"es5\",",
  "    \"lib\": [",
  "      \"dom\",",
  "      \"dom.iterable\",",
  "      \"esnext\"",
  "    ],",
  "    \"allowJs\": true,",
  "    \"skipLibCheck\": true,",
  "    \"strict\": true,",
  "    \"noEmit\": true,",
  "    \"esModuleInterop\": true,",
  "    \"module\": \"esnext\",",
  "    \"moduleResolution\": \"bundler\",",
  "    \"resolveJsonModule\": true,",
  "    \"isolatedModules\": true,",
  "    \"jsx\": \"preserve\",",
  "    \"incremental\": true,",
  "    \"paths\": \x7b",
  "      \"@/*\": [",
  "        \"./*\"",
  "      ]",
  "    \x7d",
  "  \x7d,",
  "  \"include\": [",
  "    \"next-env.d.ts\",",
  "    \"**/*.ts\",",
  "    \"**/*.tsx\"",
  "  ],",
  "  \"exclude\": [",
  "    \"node_modules\"",
  "  ]",
  "\x7d"]

def ignoredFiles : String := fileOfLines [
  "# Dependencies",
  "node_modules",
  "/.pnp",
  ".pnp.js",
  "",
  "# Testing",
  "/coverage",
  "",
  "# Next.js",
  "/.next/",
  "/out/",
  "",
  "# Production",
  "/build",
  "",
  "# Misc",
  ".DS_Store",
  "*.pem",
  "",
  "# Debug",
  "npm-debug.log*",
  "yarn-debug.log*",
  "yarn-error.log*",
  "",
  "# Local env files",
  ".env*.local",
  "",
  "# Vercel",
  ".vercel",
  "",
  "# TypeScript",
  "*.tsbuildinfo",
  "next-env.d.ts"]

def globalStyles : String := fileOfLines [
  "@tailwind base;",
  "@tailwind components;",
  "@tailwind utilities;",
  "",
  "html,",
  "body \x7b",
  "  padding: 0;",
  "  margin: 0;",
  "\x7d",
  "",
  "* \x7b",
  "  box-sizing: border-box;",
  "\x7d",
  "",
  ".page-container \x7b",
  "  min-height: 100vh;",
  "\x7d",
  "",
  ".builder-body-root \x7b",
  "  min-height: 100vh;",
  "  width: 100%;",
  "\x7d"]

def appPage : String := fileOfLines [
  "import '@/styles/globals.css';",
  "import type \x7b AppProps \x7d from 'next/app';",
  "",
  "export default function App(\x7b Component, pageProps \x7d: AppProps) \x7b",
  "  return <Component \x7b...pageProps\x7d />;",
  "\x7d"]

def documentPage : String := fileOfLines [
  "import \x7b Html, Head, Main, NextScript \x7d from 'next/document';",
  "",
  "export default function Document() \x7b",
  "  return (",
  "    <Html lang=\"en\">",
  "      <Head />",
  "      <body>",
  "        <Main />",
  "        <NextScript />",
  "      </body>",
  "    </Html>",
  "  );",
  "\x7d"]

end Sitewright.Site
